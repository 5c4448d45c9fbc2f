import SealedChannel.Bytes

/-!
# Public-key algorithms

## What is here

* `Algorithm` — the algorithms that a key-server record may name, with their numbers in
  `Algorithm.ofId?` and two spellings, `Algorithm.name` for people and `Algorithm.tag` for JSON.
-/

set_option autoImplicit false
namespace SealedChannel
namespace KeyServer

/-- A public-key algorithm of OpenPGP. -/
inductive Algorithm where
  | rsaEncryptOrSign
  | rsaEncrypt
  | rsaSign
  | elGamalEncrypt
  | dsa
  | ec
  | ecdsa
  | elGamalEncryptOrSign
  | dh
  deriving DecidableEq, Repr

namespace Algorithm

/-- The algorithm of a number. -/
def ofId? : Nat → Option Algorithm
  | 1 => some .rsaEncryptOrSign
  | 2 => some .rsaEncrypt
  | 3 => some .rsaSign
  | 16 => some .elGamalEncrypt
  | 17 => some .dsa
  | 18 => some .ec
  | 19 => some .ecdsa
  | 20 => some .elGamalEncryptOrSign
  | 21 => some .dh
  | _ => none

/-- The name of an algorithm in texts for people. -/
def name : Algorithm → String
  | .rsaEncryptOrSign => "RSAEncryptOrSign"
  | .rsaEncrypt => "RSAEncrypt"
  | .rsaSign => "RSASign"
  | .elGamalEncrypt => "ElGamalEncrypt"
  | .dsa => "DSA"
  | .ec => "EC"
  | .ecdsa => "ECDSA"
  | .elGamalEncryptOrSign => "ElGamalEncryptOrSign"
  | .dh => "DH"

/-- The name of an algorithm in JSON. -/
def tag : Algorithm → String
  | .rsaEncryptOrSign => "RsaEncryptOrSign"
  | .rsaEncrypt => "RsaEncrypt"
  | .rsaSign => "RsaSign"
  | .elGamalEncrypt => "ElGamalEncrypt"
  | .dsa => "Dsa"
  | .ec => "Ec"
  | .ecdsa => "Ecdsa"
  | .elGamalEncryptOrSign => "ElGamalEncryptOrSign"
  | .dh => "Dh"

end Algorithm

end KeyServer

end SealedChannel
