import SealedChannel.Service.ChannelMode

/-!
# The two parts of a change of a mode

A change on behalf of a member first switches the mode and then tells others of it.  Only the first
part writes, and whatever becomes of the second one, the first has been done.

## What is here

* `Service.switchMode`, `Service.announceMode` — the two parts.
* `Service.changeMode_eq` — they make the whole.
-/

set_option autoImplicit false
namespace SealedChannel
namespace Service

/-- Switches the mode of a channel on behalf of a member. -/
def switchMode (modes : Modes) (userId channelId : String) (mode : Mode) :
    Operation ServiceError Bool := do
  requireMember userId channelId
  Operation.wrap .store (modes.setIfDifferent channelId mode)

/-- Tells others of a mode that was switched, or a member of one that was there already. -/
def announceMode (s : Service) (userId channelId : String) (mode : Mode) (changed : Bool) :
    Operation ServiceError Bool :=
  if changed then do
    let _ ← Operation.attempt (.host (.publishEvent (modeEvent channelId mode)))
    let message ← s.announcement userId channelId mode
    let _ ← ask (.createPost (s.botPost channelId message))
    return true
  else do
    s.noticeUnchanged userId channelId mode
    return false

/-- **The parts of a change.**  A change switches the mode and then tells others of it. -/
theorem changeMode_eq (s : Service) (userId channelId : String) (mode : Mode) :
    s.changeMode userId channelId mode =
      switchMode s.modes userId channelId mode >>= s.announceMode userId channelId mode := by
  rw [changeMode, switchMode, bind_assoc]
  rfl

end Service

end SealedChannel
