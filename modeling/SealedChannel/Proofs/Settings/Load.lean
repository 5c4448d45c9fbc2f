import SealedChannel.Proofs.Settings.Field
import SealedChannel.Settings.Load

/-!
# How settings are loaded

The value of each field comes from the document, else from the environment, else it is the default.
Loading fails if one of the two sources says something about a field that is no value, even if the
other one would have had the last word, and also if the document cannot be had or if what comes out
is not fit for the service.

## What is here

* `Settings.ofEnvironment`, `Settings.ofDocument` — the environment and a document as sources.
* `Settings.ofVariables_eq`, `Settings.applyAll_changesOf` — they are followed field by field.
* `Settings.Names` — the document that an environment names.
* `Settings.merged` — the value of a field.
* `Settings.LoadFails` — why settings cannot be loaded.
* `Settings.StopsAt` — where a file stops, and what it has changed until then.
* `Settings.load_merges` — loading, in all cases.
-/

set_option autoImplicit false
namespace SealedChannel
namespace Settings

/-! ## The environment and a document as sources -/

/-- What environment variables say.  A text that names no truth value says nothing. -/
def ofEnvironment (env : Table Bytes) : Source
  | .listenAddress => (textOf? env "E2EE_LISTEN_ADDR").map (address "Invalid listen_addr")
  | .keyServer => (textOf? env "E2EE_GPG_KEY_SERVER").map .ok
  | .botsMayPost => ((textOf? env "E2EE_BOT_CAN_ALWAYS_POST").bind truth?).map .ok
  | .storeSeconds => (textOf? env "E2EE_KV_TIMEOUT_SECS").map (number "kv_timeout_secs")
  | .requestSeconds => (textOf? env "E2EE_HTTP_TIMEOUT_SECS").map (number "http_timeout_secs")
  | .modeLocks => (textOf? env "E2EE_MODE_LOCK_SHARDS").map (number "mode_lock_shards")

/-- What a document says.  A value of another type than expected says nothing. -/
def ofDocument (doc : Toml.Content) : Source
  | .listenAddress => (doc.text? "listen_addr").map (address "Invalid listen_addr in TOML")
  | .keyServer => (doc.text? "gpg_key_server").map .ok
  | .botsMayPost => (doc.boolean? "bot_can_always_post").map .ok
  | .storeSeconds => (doc.integer? "kv_timeout_secs").map (natural "kv_timeout_secs")
  | .requestSeconds => (doc.integer? "http_timeout_secs").map (natural "http_timeout_secs")
  | .modeLocks => (doc.integer? "mode_lock_shards").map (natural "mode_lock_shards")

/-- The settings that were made, if nothing stopped it. -/
def settled : Settings × Option SettingsError → Except SettingsError Settings
  | (s, none) => .ok s
  | (_, some e) => .error e

/-- The change that a source makes to a field. -/
def changeBy (source : Source) (f : Field) : Change := fun s =>
  match source f with
  | none => .ok s
  | some result => result.map (s.set f)

theorem settled_follow_cons {source : Source} {f : Field} {rest : List Field} {s : Settings}
    {step : Except SettingsError Settings} {next : Change} (hstep : step = changeBy source f s)
    (hnext : ∀ s, next s = settled (source.follow s rest)) :
    step >>= next = settled (source.follow s (f :: rest)) := by
  rw [hstep, Source.follow, changeBy]
  cases source f with
  | none => exact hnext s
  | some result =>
    cases result with
    | ok v => exact hnext (s.set f v)
    | error e => rfl

theorem bind_return {α : Type} (result : Except SettingsError α) (g : α → Settings) :
    (do let a ← result; return g a) = result.map g := by
  cases result <;> rfl

/-- A variable changes its field. -/
theorem byVariable_eq {env : Table Bytes} {name : String} {f : Field}
    {read : String → Except SettingsError f.Value}
    (hsource : ofEnvironment env f = (textOf? env name).map read) {change : String → Change}
    (hchange : ∀ text s, change text s = (read text).map (s.set f)) (s : Settings) :
    byVariable env name change s = changeBy (ofEnvironment env) f s := by
  rw [byVariable, changeBy, hsource]
  cases textOf? env name with
  | none => rfl
  | some text => exact hchange text s

/-- So does the variable whose text may say nothing. -/
theorem byVariable_botsMayPost (env : Table Bytes) (s : Settings) :
    byVariable env "E2EE_BOT_CAN_ALWAYS_POST"
        (fun text s => .ok { s with botsMayPost := (truth? text).getD s.botsMayPost }) s
      = changeBy (ofEnvironment env) .botsMayPost s := by
  rw [byVariable, changeBy, ofEnvironment]
  cases textOf? env "E2EE_BOT_CAN_ALWAYS_POST" with
  | none => rfl
  | some text =>
    dsimp only [Option.bind_some]
    cases truth? text <;> rfl

/-- **Environment variables** are followed field by field. -/
theorem ofVariables_eq (env : Table Bytes) (s : Settings) :
    ofVariables env s = settled ((ofEnvironment env).follow s Field.order) := by
  rw [ofVariables, Field.order]
  refine settled_follow_cons (byVariable_eq rfl (fun _ _ => ?_) s) fun s => ?_
  · exact bind_return _ _
  refine settled_follow_cons (byVariable_eq rfl (fun _ _ => ?_) s) fun s => ?_
  · rfl
  refine settled_follow_cons (byVariable_botsMayPost env s) fun s => ?_
  refine settled_follow_cons (byVariable_eq rfl (fun _ _ => ?_) s) fun s => ?_
  · exact bind_return _ _
  refine settled_follow_cons (byVariable_eq rfl (fun _ _ => ?_) s) fun s => ?_
  · exact bind_return _ _
  refine (bind_pure _).symm.trans (settled_follow_cons (byVariable_eq rfl (fun _ _ => ?_) s) ?_)
  · exact bind_return _ _
  · exact fun s => rfl

/-- A key of a document changes its field. -/
theorem applyAll_append {α : Type} {source : Source} {f : Field} {rest : List Field}
    {value : Option α} {read : α → Except SettingsError f.Value}
    (hsource : source f = value.map read) {change : α → Change}
    (hchange : ∀ a s, change a s = (read a).map (s.set f)) {changes : List Change}
    (hnext : ∀ s, applyAll changes s = source.follow s rest) (s : Settings) :
    applyAll ((value.map change).toList ++ changes) s = source.follow s (f :: rest) := by
  rw [Source.follow, hsource]
  cases value with
  | none => exact hnext s
  | some a =>
    rw [Option.map_some, Option.map_some, Option.toList_some, List.singleton_append, applyAll,
      hchange]
    cases read a with
    | ok v => exact hnext (s.set f v)
    | error e => rfl

/-- **Documents** are followed field by field. -/
theorem applyAll_changesOf (doc : Toml.Content) (s : Settings) :
    applyAll (changesOf doc) s = (ofDocument doc).follow s Field.order := by
  rw [changesOf, Field.order, ← List.append_nil (_ ++ _)]
  simp only [List.append_assoc]
  refine applyAll_append rfl (fun _ _ => ?_) (fun s => ?_) s
  · exact bind_return _ _
  refine applyAll_append rfl (fun _ _ => ?_) (fun s => ?_) s
  · rfl
  refine applyAll_append rfl (fun _ _ => ?_) (fun s => ?_) s
  · rfl
  refine applyAll_append rfl (fun _ _ => ?_) (fun s => ?_) s
  · exact bind_return _ _
  refine applyAll_append rfl (fun _ _ => ?_) (fun s => ?_) s
  · exact bind_return _ _
  refine applyAll_append rfl (fun _ _ => ?_) (fun s => ?_) s
  · exact bind_return _ _
  rfl

/-! ## What is no value -/

/-- A variable holds a text that is no value of its field. -/
def EnvironmentFault (env : Table Bytes) : Prop :=
  (∃ text, textOf? env "E2EE_LISTEN_ADDR" = some text ∧ SocketAddress.ofText? text = none) ∨
    ∃ name ∈ ["E2EE_KV_TIMEOUT_SECS", "E2EE_HTTP_TIMEOUT_SECS", "E2EE_MODE_LOCK_SHARDS"],
      ∃ text, textOf? env name = some text ∧
        ∀ n, Numeral.natural (UInt64.size - 1) text.toList ≠ .ok n

/-- A document has a value of the expected type that is no value of its field. -/
def DocumentFault (doc : Toml.Content) : Prop :=
  (∃ text, doc.text? "listen_addr" = some text ∧ SocketAddress.ofText? text = none) ∨
    ∃ key ∈ ["kv_timeout_secs", "http_timeout_secs", "mode_lock_shards"],
      ∃ n, doc.integer? key = some n ∧ n < 0

theorem address_eq_error_iff {what text : String} :
    (∃ e, address what text = .error e) ↔ SocketAddress.ofText? text = none := by
  rw [address]
  cases SocketAddress.ofText? text <;> simp

theorem number_eq_error_iff {field text : String} : (∃ e, number field text = .error e) ↔
    ∀ n, Numeral.natural (UInt64.size - 1) text.toList ≠ .ok n := by
  rw [number]
  cases Numeral.natural (UInt64.size - 1) text.toList <;> simp

theorem natural_eq_error_iff {field : String} {n : Int} :
    (∃ e, natural field n = .error e) ↔ n < 0 := by
  rw [natural]
  split <;> simp_all

theorem map_eq_error_iff {α β : Type} {value : Option α} {read : α → Except SettingsError β} :
    (∃ e, value.map read = some (.error e)) ↔ ∃ a, value = some a ∧ ∃ e, read a = .error e := by
  cases value <;> simp

theorem environmentFault_iff {env : Table Bytes} :
    EnvironmentFault env ↔ ∃ f e, ofEnvironment env f = some (.error e) := by
  simp only [EnvironmentFault, Field.exists_iff, ofEnvironment, map_eq_error_iff,
    address_eq_error_iff, number_eq_error_iff, List.mem_cons, List.not_mem_nil, or_false,
    exists_eq_or_imp, exists_eq_left, reduceCtorEq, exists_false, and_false, false_or]

theorem documentFault_iff {doc : Toml.Content} :
    DocumentFault doc ↔ ∃ f e, ofDocument doc f = some (.error e) := by
  simp only [DocumentFault, Field.exists_iff, ofDocument, map_eq_error_iff, address_eq_error_iff,
    natural_eq_error_iff, List.mem_cons, List.not_mem_nil, or_false, exists_eq_or_imp,
    exists_eq_left, reduceCtorEq, exists_false, and_false, false_or]

/-! ## Files -/

/-- The document that a file holds, or why there is none. -/
def documentOf (content : Except FileError Bytes) : Except SettingsError Toml.Content :=
  match textOfFile content with
  | .error e => .error (.io e.message)
  | .ok text => (Toml.parse? text).elim (.error .toml) .ok

theorem withFile_eq (content : Except FileError Bytes) (s : Settings) :
    withFile content s = match documentOf content with
      | .ok doc => (ofDocument doc).follow s Field.order
      | .error e => (s, some e) := by
  rw [withFile, documentOf]
  cases textOfFile content with
  | error e => rfl
  | ok text =>
    dsimp only
    rw [withToml]
    cases Toml.parse? text with
    | none => rfl
    | some doc => exact applyAll_changesOf doc s

/-- A file stops before it has changed anything, or at the first field about which its document says
something that is no value.  Then the fields that are handled before that one hold what the document
says, and the others are as they were. -/
inductive StopsAt (content : Except FileError Bytes) (s : Settings) :
    Settings → SettingsError → Prop
  | document {e : SettingsError} (h : documentOf content = .error e) : StopsAt content s s e
  | field {doc : Toml.Content} {before after : List Field} {f : Field} {t : Settings}
    {e : SettingsError} (hdoc : documentOf content = .ok doc)
    (horder : Field.order = before ++ f :: after)
    (hsound : ∀ g ∈ before, (ofDocument doc).Sound g) (hfault : ofDocument doc f = some (.error e))
    (hbefore : ∀ g ∈ before, t.get g = ((ofDocument doc).value? g).getD (s.get g))
    (hafter : ∀ g ∈ f :: after, t.get g = s.get g) : StopsAt content s t e

theorem stopsAt_of_withFile {content : Except FileError Bytes} {s t : Settings} {e : SettingsError}
    (h : withFile content s = (t, some e)) : StopsAt content s t e := by
  rw [withFile_eq] at h
  cases hdoc : documentOf content with
  | error e =>
    rw [hdoc] at h
    cases h
    exact .document hdoc
  | ok doc =>
    rw [hdoc] at h
    dsimp only at h
    rcases (ofDocument doc).follow_cases s Field.order with ⟨-, hfollow⟩ |
      ⟨before, f, after, e, horder, hsound, hfault, hfollow⟩
    · rw [hfollow] at h
      cases h
    · rw [hfollow] at h
      cases h
      have hnodup : (before ++ f :: after).Nodup := horder ▸ (by decide : Field.order.Nodup)
      refine .field hdoc horder hsound hfault (fun g hg => Source.get_overlay hg) fun g hg => ?_
      exact Source.get_overlay_of_not_mem fun hbefore =>
        (List.nodup_append.1 hnodup).2.2 g hbefore g hg rfl

/-! ## Loading -/

/-- The document that an environment names, if it names one. -/
inductive Names (env : Table Bytes) (files : Files) : Option Toml.Content → Prop
  | nothing (h : textOf? env "E2EE_CONFIG" = none) : Names env files none
  | document {path : String} {doc : Toml.Content} (h : textOf? env "E2EE_CONFIG" = some path)
    (hdoc : documentOf (files.read path) = .ok doc) : Names env files (some doc)

/-- What a document says, if there is one. -/
def ofDocument? (doc? : Option Toml.Content) : Source :=
  doc?.elim (fun _ => none) ofDocument

/-- The value of a field: from the document, else from the environment, else the default. -/
def merged (env : Table Bytes) (doc? : Option Toml.Content) (f : Field) : f.Value :=
  ((ofDocument? doc?).value? f).getD (((ofEnvironment env).value? f).getD (default.get f))

/-- Values that the service can work with. -/
structure Fit (value : (f : Field) → f.Value) : Prop where
  store : (value .storeSeconds : Nat) ≠ 0
  request : (value .requestSeconds : Nat) ≠ 0
  locks : (value .modeLocks : Nat) ≠ 0
  server : "http://".toList <+: (value .keyServer : String).toList ∨
    "https://".toList <+: (value .keyServer : String).toList

theorem validate_eq_ok_iff {s : Settings} : s.validate = .ok () ↔ Fit s.get := by
  have hserver : ("http://".toList.isPrefixOf s.keyServer.toList
      || "https://".toList.isPrefixOf s.keyServer.toList) = true ↔
        "http://".toList <+: s.keyServer.toList ∨ "https://".toList <+: s.keyServer.toList := by
    rw [Bool.or_eq_true, List.isPrefixOf_iff_prefix, List.isPrefixOf_iff_prefix]
  rw [validate]
  by_cases hstore : s.storeSeconds = 0
  · rw [if_pos hstore]
    exact ⟨by rintro ⟨⟩, fun h => absurd hstore h.store⟩
  rw [if_neg hstore]
  by_cases hrequest : s.requestSeconds = 0
  · rw [if_pos hrequest]
    exact ⟨by rintro ⟨⟩, fun h => absurd hrequest h.request⟩
  rw [if_neg hrequest]
  by_cases hlocks : s.modeLocks = 0
  · rw [if_pos hlocks]
    exact ⟨by rintro ⟨⟩, fun h => absurd hlocks h.locks⟩
  rw [if_neg hlocks]
  split
  · rename_i hprefix
    exact ⟨fun _ => ⟨hstore, hrequest, hlocks, hserver.1 hprefix⟩, fun _ => rfl⟩
  · rename_i hprefix
    exact ⟨by rintro ⟨⟩, fun h => absurd (hserver.2 h.server) hprefix⟩

/-- Why settings cannot be loaded. -/
inductive LoadFails (env : Table Bytes) (files : Files) : Prop
  | environment (h : EnvironmentFault env)
  | file {path : String} {e : SettingsError} (h : textOf? env "E2EE_CONFIG" = some path)
    (hdoc : documentOf (files.read path) = .error e)
  | document {doc : Toml.Content} (hdoc : Names env files (some doc)) (h : DocumentFault doc)
  | unfit {doc? : Option Toml.Content} (hdoc : Names env files doc?) (h : ¬ Fit (merged env doc?))

variable {env : Table Bytes} {files : Files} {s t : Settings}

/-- The settings that the file makes of others, if the environment names one. -/
def configured (env : Table Bytes) (files : Files) : Change := fun s =>
  (textOf? env "E2EE_CONFIG").elim (.ok s) fun path => settled (withFile (files.read path) s)

theorem load_eq (env : Table Bytes) (files : Files) :
    load env files = (ofVariables env default >>= configured env files) >>= fun s =>
      s.validate.map fun _ => s := by
  rw [load, bind_assoc]
  refine congrArg _ (funext fun s => ?_)
  rw [configured]
  cases textOf? env "E2EE_CONFIG" with
  | none => exact bind_return s.validate fun _ => s
  | some path =>
    dsimp only [Option.elim]
    rcases withFile (files.read path) s with ⟨t, error?⟩
    cases error? with
    | none => exact bind_return t.validate fun _ => t
    | some e => rfl

theorem settled_follow_eq_ok_iff {source : Source} :
    settled (source.follow s Field.order) = .ok t ↔
      (∀ f, source.Sound f) ∧ ∀ f, t.get f = (source.value? f).getD (s.get f) := by
  rcases source.follow_cases s Field.order with ⟨hsound, hfollow⟩ |
    ⟨before, f, after, e, horder, -, hfault, hfollow⟩
  · rw [hfollow]
    constructor
    · rintro ⟨⟩
      exact ⟨fun f => hsound f f.mem_order, fun f => Source.get_overlay f.mem_order⟩
    · rintro ⟨-, hget⟩
      exact congrArg Except.ok <| ext_get fun f =>
        (Source.get_overlay f.mem_order).trans (hget f).symm
  · rw [hfollow]
    exact ⟨by rintro ⟨⟩, fun h => absurd hfault (h.1 f e)⟩

theorem Names.unique {doc? other? : Option Toml.Content} (h : Names env files doc?)
    (hother : Names env files other?) : doc? = other? := by
  cases h <;> cases hother <;> simp_all

theorem configured_eq_ok_iff : configured env files s = .ok t ↔
    ∃ doc?, Names env files doc? ∧ (∀ f, (ofDocument? doc?).Sound f) ∧
      ∀ f, t.get f = ((ofDocument? doc?).value? f).getD (s.get f) := by
  rw [configured]
  cases hpath : textOf? env "E2EE_CONFIG" with
  | none =>
    constructor
    · rintro ⟨⟩
      exact ⟨none, .nothing hpath, fun f e => nofun, fun f => rfl⟩
    · rintro ⟨doc?, hnames, -, hget⟩
      obtain rfl := hnames.unique (.nothing hpath)
      exact congrArg Except.ok (ext_get fun f => (hget f).symm)
  | some path =>
    dsimp only [Option.elim]
    rw [withFile_eq]
    cases hdoc : documentOf (files.read path) with
    | error e =>
      refine ⟨by rintro ⟨⟩, ?_⟩
      rintro ⟨doc?, hnames, -⟩
      cases hnames <;> simp_all
    | ok doc =>
      dsimp only
      rw [settled_follow_eq_ok_iff]
      constructor
      · exact fun h => ⟨some doc, .document hpath hdoc, h⟩
      · rintro ⟨doc?, hnames, h⟩
        obtain rfl := hnames.unique (.document hpath hdoc)
        exact h

theorem load_eq_ok_iff : load env files = .ok t ↔ (∀ f, (ofEnvironment env).Sound f) ∧
    ∃ doc?, Names env files doc? ∧ (∀ f, (ofDocument? doc?).Sound f) ∧
      (∀ f, t.get f = merged env doc? f) ∧ Fit t.get := by
  have hbind {α β : Type} {x : Except SettingsError α} {f : α → Except SettingsError β} {b : β} :
      x >>= f = .ok b ↔ ∃ a, x = .ok a ∧ f a = .ok b := by
    cases x <;> simp [bind, Except.bind]
  have hvalid {s : Settings} :
      (s.validate.map fun _ => s) = .ok t ↔ s.validate = .ok () ∧ s = t := by
    cases s.validate <;> simp [Except.map]
  simp only [load_eq, hbind, hvalid, ofVariables_eq, settled_follow_eq_ok_iff,
    configured_eq_ok_iff, validate_eq_ok_iff]
  constructor
  · rintro ⟨t, ⟨s, ⟨henv, hs⟩, doc?, hnames, hdoc, ht⟩, hfit, rfl⟩
    exact ⟨henv, doc?, hnames, hdoc, fun f => by rw [ht, hs, merged], hfit⟩
  · rintro ⟨henv, doc?, hnames, hdoc, ht, hfit⟩
    have hoverlay (f : Field) := (ofEnvironment env).get_overlay (s := default) f.mem_order
    refine ⟨t, ⟨_, ⟨henv, hoverlay⟩, doc?, hnames, hdoc, fun f => ?_⟩, hfit, rfl⟩
    rw [ht, merged, hoverlay]

theorem sound_ofDocument?_iff {doc? : Option Toml.Content} :
    (∀ f, (ofDocument? doc?).Sound f) ↔ ∀ doc, doc? = some doc → ¬ DocumentFault doc := by
  cases doc? with
  | none => exact ⟨fun _ doc h => (by cases h), fun _ f e => nofun⟩
  | some doc => simp [documentFault_iff, Source.Sound, ofDocument?]

/-- Settings that can be loaded are loaded. -/
theorem exists_load_of_not_fails (h : ¬ LoadFails env files) : ∃ t, load env files = .ok t := by
  have hsound : ∀ f, (ofEnvironment env).Sound f := fun f e he =>
    h (.environment (environmentFault_iff.2 ⟨f, e, he⟩))
  obtain ⟨doc?, hnames⟩ : ∃ doc?, Names env files doc? := by
    cases hpath : textOf? env "E2EE_CONFIG" with
    | none => exact ⟨none, .nothing hpath⟩
    | some path =>
      cases hdoc : documentOf (files.read path) with
      | error e => exact absurd (.file hpath hdoc) h
      | ok doc => exact ⟨some doc, .document hpath hdoc⟩
  have hdoc : ∀ f, (ofDocument? doc?).Sound f := by
    refine sound_ofDocument?_iff.2 fun doc hdoc hfault => h (.document ?_ hfault)
    rwa [← hdoc]
  have hfit : Fit (merged env doc?) := Classical.not_not.1 fun hunfit => h (.unfit hnames hunfit)
  let s := (ofEnvironment env).overlay default Field.order
  have hmerged (f : Field) :
      ((ofDocument? doc?).overlay s Field.order).get f = merged env doc? f := by
    rw [Source.get_overlay f.mem_order, Source.get_overlay f.mem_order, merged]
  refine ⟨_, load_eq_ok_iff.2 ⟨hsound, doc?, hnames, hdoc, hmerged, ?_⟩⟩
  rwa [funext hmerged]

/-- Settings that cannot be loaded are not loaded. -/
theorem not_fails_of_load (h : load env files = .ok t) : ¬ LoadFails env files := by
  obtain ⟨hsound, doc?, hnames, hdoc, hget, hfit⟩ := load_eq_ok_iff.1 h
  rintro (hfault | ⟨hpath, herror⟩ | ⟨hother, hfault⟩ | ⟨hother, hunfit⟩)
  · obtain ⟨f, e, he⟩ := environmentFault_iff.1 hfault
    exact hsound f e he
  · cases hnames <;> simp_all
  · exact sound_ofDocument?_iff.1 hdoc _ (hnames.unique hother) hfault
  · obtain rfl := hnames.unique hother
    rw [← funext hget] at hunfit
    exact hunfit hfit

/-- **Loading settings.**  Loading succeeds if and only if nothing stands against it, and then each
field has the value from the document, else the one from the environment, else its default; what is
loaded is valid, so that the limits leave time for calls; and a file that is stopped at a field has
changed those before it, and no other. -/
theorem load_merges (env : Table Bytes) (files : Files) :
    (∀ t, load env files = .ok t ↔ ¬ LoadFails env files ∧
      ∃ doc?, Names env files doc? ∧ ∀ f, t.get f = merged env doc? f) ∧
    ((∃ e, load env files = .error e) ↔ LoadFails env files) ∧
    (∀ t, load env files = .ok t →
      t.validate = .ok () ∧ ⟨0⟩ < t.storeLimit ∧ ⟨0⟩ < t.requestLimit) ∧
    ∀ content s t e, withFile content s = (t, some e) → StopsAt content s t e := by
  refine ⟨fun t => ⟨fun h => ?_, ?_⟩, ⟨?_, fun h => ?_⟩, fun t h => ?_, fun _ _ _ _ =>
    stopsAt_of_withFile⟩
  · obtain ⟨-, doc?, hnames, -, hget, -⟩ := load_eq_ok_iff.1 h
    exact ⟨not_fails_of_load h, doc?, hnames, hget⟩
  · rintro ⟨hfails, doc?, hnames, hget⟩
    -- what is loaded is the same, since settings are told by their fields
    obtain ⟨s, hs⟩ := exists_load_of_not_fails hfails
    obtain ⟨-, other?, hother, -, hsget, -⟩ := load_eq_ok_iff.1 hs
    obtain rfl := hnames.unique hother
    rwa [ext_get fun f => (hget f).trans (hsget f).symm]
  · rintro ⟨e, he⟩
    refine Classical.not_not.1 fun hfails => ?_
    obtain ⟨t, ht⟩ := exists_load_of_not_fails hfails
    rw [he] at ht
    cases ht
  · cases hload : load env files with
    | error e => exact ⟨e, rfl⟩
    | ok t => exact absurd h (not_fails_of_load hload)
  · obtain ⟨-, _, -, -, -, hfit⟩ := load_eq_ok_iff.1 h
    exact ⟨validate_eq_ok_iff.2 hfit, Duration.ofSeconds_pos hfit.store,
      Duration.ofSeconds_pos hfit.request⟩

/-- An environment that sets three fields, one of them to a text that says nothing, and names a
file. -/
def mixedEnvironment : Table Bytes :=
  (((Table.empty.insert "E2EE_KV_TIMEOUT_SECS" (Bytes.ofText "9")).insert
    "E2EE_HTTP_TIMEOUT_SECS" (Bytes.ofText "3")).insert
    "E2EE_BOT_CAN_ALWAYS_POST" (Bytes.ofText "yes")).insert
    "E2EE_CONFIG" (Bytes.ofText "/e2ee.toml")

/-- The file sets two fields, one of them to a value of another type than expected. -/
def mixedFiles : Files :=
  ⟨.directory [("e2ee.toml",
    .file (Bytes.ofText "kv_timeout_secs = \"soon\"\nhttp_timeout_secs = 7\n"))], []⟩

/-- A file that is stopped at its second key. -/
def stoppedFile : Except FileError Bytes :=
  .ok (Bytes.ofText "http_timeout_secs = 7\nmode_lock_shards = -1\n")

theorem load_merges_of_mixedFiles :
    load mixedEnvironment mixedFiles = .ok { default with storeSeconds := 9, requestSeconds := 7 } ∧
      ¬ LoadFails mixedEnvironment mixedFiles ∧
      validate { default with storeSeconds := 9, requestSeconds := 7 } = .ok () ∧
      StopsAt stoppedFile default { default with requestSeconds := 7 }
        (.invalid "mode_lock_shards must not be negative") := by
  have hload : load mixedEnvironment mixedFiles
      = .ok { default with storeSeconds := 9, requestSeconds := 7 } := by
    have hsome : (load mixedEnvironment mixedFiles).toOption
        = some { default with storeSeconds := 9, requestSeconds := 7 } := by
      decide +kernel
    cases h : load mixedEnvironment mixedFiles with
    | ok t =>
      rw [h] at hsome
      exact congrArg Except.ok (Option.some.inj hsome)
    | error e =>
      rw [h] at hsome
      cases hsome
  have hfile : withFile stoppedFile default = ({ default with requestSeconds := 7 },
      some (.invalid "mode_lock_shards must not be negative")) := by
    decide +kernel
  obtain ⟨hiff, -, hvalid, hstops⟩ := load_merges mixedEnvironment mixedFiles
  exact ⟨hload, ((hiff _).1 hload).1, (hvalid _ hload).1, hstops _ _ _ _ hfile⟩

end Settings

end SealedChannel
