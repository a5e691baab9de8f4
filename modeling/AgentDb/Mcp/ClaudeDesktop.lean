import AgentDb.Lib.JsonMap
import AgentDb.Lib.TextCode
import AgentDb.Lib.Transaction

/-!
# The configuration of Claude Desktop: `mcp/connect.rs`

The bridge is entered under `mcpServers.dopedb` of a JSON file of the user, and removed from there.
The file is read, parsed, changed and written again. Reading and writing may fail, and a write that
fails may have written a part; printing and parsing are `serde_json` and come in as `SerdeJson`.

A root that is no object is replaced by one, and so is an `mcpServers` that is none: this is what
the user loses. `keepsConfig_iff` is the exact condition under which nothing is lost.
-/

namespace AgentDb
namespace Mcp

open Json TextCode

/-! ### Third-party code and files -/

/-- What is parsed: no object has a key twice. -/
inductive KeysDistinct : Value → Prop
  | null : KeysDistinct .null
  | bool (b : Bool) : KeysDistinct (.bool b)
  | number (n : Number) : KeysDistinct (.number n)
  | string (s : String) : KeysDistinct (.string s)
  | array {items : List Value} (each : ∀ v ∈ items, KeysDistinct v) : KeysDistinct (.array items)
  | object {entries : List (String × Value)} (distinct : (entries.map Prod.fst).Nodup)
      (each : ∀ e ∈ entries, KeysDistinct e.2) : KeysDistinct (.object entries)

/-- `serde_json::from_str` (an error is its text) and `to_string_pretty`. -/
structure SerdeJson where
  fromStr : String → Except String (Subtype KeysDistinct)
  toStringPretty : Value → String

/-- A configuration and its backup, each if it exists. -/
structure Files where
  config : Option (List UInt8)
  backup : Option (List UInt8)
  deriving DecidableEq

/-- How `fs::write` ends. A write that fails leaves what it left. -/
inductive WriteOutcome
  | written
  | failed (left : Option (List UInt8)) (error : String)

def WriteOutcome.left (bytes : List UInt8) : WriteOutcome → Option (List UInt8)
  | .written => some bytes
  | .failed left _ => left

/-- What a call meets: whether there is a home directory, the error of the read, and how the writes
end. -/
structure Answers where
  home : Bool
  readError : Option String
  backup : WriteOutcome
  config : WriteOutcome

/-- `fs::read_to_string`. -/
def Answers.readToString (a : Answers) (bytes : List UInt8) : Except String String :=
  match a.readError with
  | some error => .error error
  | none =>
      match String.fromUTF8? ⟨bytes.toArray⟩ with
      | some s => .ok s
      | none => .error "stream did not contain valid UTF-8"

variable (x : SerdeJson)

/-- The value of a configuration that is there. -/
def readConfig (a : Answers) (message : String → String) (bytes : List UInt8) :
    Except String (Subtype KeysDistinct) := do
  let s ← a.readToString bytes
  (x.fromStr s).mapError message

/-- Write the configuration, the last step of a call. -/
def writeConfig (a : Answers) (root : Value) (message : String) (files : Files) :
    Except String String × Files :=
  let bytes := utf8 (x.toStringPretty root)
  let files := { files with config := a.config.left bytes }
  match a.config with
  | .written => (.ok message, files)
  | .failed _ error => (.error error, files)

/-! ### Connecting -/

/-- The entries of an object, and none of anything else. -/
def entriesOf : Value → List (String × Value)
  | .object entries => entries
  | _ => []

/-- The entry of the bridge. -/
def bridgeEntry (bridgePath : String) : Value := .object [("command", .string bridgePath)]

/-- The root with the bridge entered. -/
def connected (bridgePath : String) (root : Value) : Value :=
  let servers := ((entriesOf root).lookup "mcpServers").elim [] entriesOf
  let servers := Entries.insert "dopedb" (bridgeEntry bridgePath) servers
  .object (Entries.insert "mcpServers" (.object servers) (entriesOf root))

/-- What is changed: the value of the file, or an empty object where there is no file. -/
def connectRoot (a : Answers) (files : Files) : Except String Value :=
  match files.config with
  | none => .ok (.object [])
  | some bytes => (readConfig x a (fun e => "existing claude_desktop_config.json is not valid " ++
      "JSON (" ++ e ++ "); fix or remove it and retry — refusing to overwrite it") bytes).map (·.1)

/-- The backup of a file that was parsed. -/
def backedUp (a : Answers) (files : Files) : Files :=
  match files.config with
  | none => files
  | some bytes => { files with backup := a.backup.left bytes }

/-- `connect_claude_desktop`. -/
def connectClaudeDesktop (a : Answers) (bridgePath : String) (files : Files) :
    Except String String × Files :=
  if ¬ a.home then (.error "no home dir", files)
  else match connectRoot x a files with
    | .error e => (.error e, files)
    | .ok root => writeConfig x a (connected bridgePath root)
        "Wrote claude_desktop_config.json — restart Claude Desktop to load it." (backedUp a files)

/-! ### Disconnecting -/

/-- The root without the bridge, if it is entered. -/
def disconnected (root : Value) : Option Value :=
  match (entriesOf root).lookup "mcpServers" with
  | some (.object servers) =>
      if (servers.lookup "dopedb").isSome then
        some (.object (Entries.insert "mcpServers" (.object (Entries.swapRemove "dopedb" servers))
          (entriesOf root)))
      else none
  | _ => none

/-- `disconnect_claude_desktop`. -/
def disconnectClaudeDesktop (a : Answers) (files : Files) : Except String String × Files :=
  if ¬ a.home then (.error "no home dir", files)
  else match files.config with
    | none => (.ok "Already removed (no Claude Desktop config).", files)
    | some bytes =>
        match readConfig x a (fun e => "existing claude_desktop_config.json is not valid JSON (" ++
            e ++ "); fix it manually") bytes with
        | .error e => (.error e, files)
        | .ok root =>
            match disconnected root.1 with
            | none => (.ok "Already removed.", files)
            | some root => writeConfig x a root "Removed — restart Claude Desktop to apply."
                (backedUp a files)

/-! ### What is kept -/

/-- A value is another one but for `mcpServers.dopedb`, which is the entry. Where there was no
`mcpServers` there is one with nothing else in it. -/
def Edited (entry : Option Value) (v v' : Value) : Prop :=
  ∃ entries entries' servers servers', v = .object entries ∧ v' = .object entries' ∧
    (entries.lookup "mcpServers" = some (.object servers) ∨
      entries.lookup "mcpServers" = none ∧ servers = []) ∧
    entries'.lookup "mcpServers" = some (.object servers') ∧
    (∀ key ≠ "mcpServers", entries'.lookup key = entries.lookup key) ∧
    servers'.lookup "dopedb" = entry ∧
    ∀ key ≠ "dopedb", servers'.lookup key = servers.lookup key

/-- The value the configuration holds, an empty object where there is none. -/
def Holds (files : Files) (v : Value) : Prop :=
  match files.config with
  | none => v = .object []
  | some bytes => ∃ s root, String.fromUTF8? ⟨bytes.toArray⟩ = some s ∧ x.fromStr s = .ok root ∧
      root.1 = v

/-- What is printed is parsed again as it was. -/
def ReadsBack (v : Value) : Prop := ∃ root, x.fromStr (x.toStringPretty v) = .ok root ∧ root.1 = v

/-- A value with room for the entry: an object, whose `mcpServers` is an object if it is there. -/
def Mergeable (v : Value) : Prop :=
  ∃ entries, v = .object entries ∧
    ∀ w, entries.lookup "mcpServers" = some w → ∃ servers, w = .object servers

/-- Connecting and disconnecting change nothing but the entry of the bridge, a second call writes
what the first one wrote, and disconnecting writes what there was. -/
structure KeepsConfig (a : Answers) (bridgePath : String) (files : Files) : Prop where
  connect : (∃ e, (connectClaudeDesktop x a bridgePath files).1 = .error e ∧
      (connectClaudeDesktop x a bridgePath files).2.config = files.config) ∨
    ∃ message v v', (connectClaudeDesktop x a bridgePath files).1 = .ok message ∧
      Holds x files v ∧ Edited (some (bridgeEntry bridgePath)) v v' ∧
      (connectClaudeDesktop x a bridgePath files).2.config =
        some (utf8 (x.toStringPretty v'))
  disconnect : (disconnectClaudeDesktop x a files).2.config = files.config ∨
    ∃ message v v', (disconnectClaudeDesktop x a files).1 = .ok message ∧
      Holds x files v ∧ Edited none v v' ∧
      (disconnectClaudeDesktop x a files).2.config = some (utf8 (x.toStringPretty v'))
  twice : ∀ v message message' a', Holds x files v → ReadsBack x (connected bridgePath v) →
    (connectClaudeDesktop x a bridgePath files).1 = .ok message →
    (connectClaudeDesktop x a' bridgePath (connectClaudeDesktop x a bridgePath files).2).1 =
      .ok message' →
    (connectClaudeDesktop x a' bridgePath (connectClaudeDesktop x a bridgePath files).2).2.config =
      (connectClaudeDesktop x a bridgePath files).2.config
  inverse : ∀ entries servers message message' a', Holds x files (.object entries) →
    entries.lookup "mcpServers" = some (.object servers) → servers.lookup "dopedb" = none →
    ReadsBack x (connected bridgePath (.object entries)) →
    (connectClaudeDesktop x a bridgePath files).1 = .ok message →
    (disconnectClaudeDesktop x a' (connectClaudeDesktop x a bridgePath files).2).1 = .ok message' →
    (disconnectClaudeDesktop x a' (connectClaudeDesktop x a bridgePath files).2).2.config =
      some (utf8 (x.toStringPretty (.object entries)))

/-- A write that is come to is of a value with room for the entry, or fails and leaves the file. -/
def WritesSafely (a : Answers) (files : Files) : Prop :=
  a.home = true → ∀ v, connectRoot x a files = .ok v →
    match a.config with
    | .written => Mergeable v
    | .failed left _ => left = files.config

/-! ### Values with the entry -/

theorem connected_connected (bridgePath : String) (v : Value) :
    connected bridgePath (connected bridgePath v) = connected bridgePath v := by
  simp only [connected, entriesOf, Entries.lookup_insert_self, Option.elim_some,
    Entries.insert_insert]

theorem edited_connected (bridgePath : String) {v : Value} (h : Mergeable v) :
    Edited (some (bridgeEntry bridgePath)) v (connected bridgePath v) := by
  obtain ⟨entries, rfl, hservers⟩ := h
  have hframe : ∀ servers : List (String × Value), ∀ key ≠ "mcpServers",
      (Entries.insert "mcpServers" (.object servers) entries).lookup key = entries.lookup key :=
    fun servers key hkey => Entries.lookup_insert_of_ne hkey _ _
  cases hlookup : entries.lookup "mcpServers" with
  | none =>
    refine ⟨entries, _, [], _, rfl, rfl, .inr ⟨hlookup, rfl⟩,
      Entries.lookup_insert_self _ _ _, hframe _, ?_, ?_⟩
    · exact Entries.lookup_insert_self _ _ _
    · intro key hkey
      rw [Entries.lookup_insert_of_ne hkey, entriesOf, hlookup, Option.elim_none]
  | some w =>
    obtain ⟨servers, rfl⟩ := hservers w hlookup
    refine ⟨entries, _, servers, _, rfl, rfl, .inl hlookup,
      Entries.lookup_insert_self _ _ _, hframe _, ?_, ?_⟩
    · exact Entries.lookup_insert_self _ _ _
    · intro key hkey
      rw [Entries.lookup_insert_of_ne hkey, entriesOf, hlookup, Option.elim_some, entriesOf]

/-- Only a value with room for the entry can be kept. -/
theorem Edited.mergeable {entry : Option Value} {v v' : Value} (h : Edited entry v v') :
    Mergeable v := by
  obtain ⟨entries, entries', servers, servers', rfl, -, hservers, -⟩ := h
  refine ⟨entries, rfl, fun w hw => ?_⟩
  obtain hsome | ⟨hnone, -⟩ := hservers
  · exact ⟨servers, Option.some.inj (hw.symm.trans hsome)⟩
  · rw [hnone] at hw
    cases hw

theorem edited_disconnected {v v' : Value} (hv : KeysDistinct v) (h : disconnected v = some v') :
    Edited none v v' := by
  unfold disconnected at h
  split at h
  · rename_i servers hservers
    split at h
    · obtain rfl := Option.some.inj h
      cases v with
      | object entries =>
        have hdistinct : (servers.map Prod.fst).Nodup := by
          cases hv with
          | object distinct each =>
            have hmem := (Entries.lookup_eq_some_iff distinct).1 hservers
            cases each _ hmem with
            | object distinct' _ => exact distinct'
        refine ⟨entries, _, servers, _, rfl, rfl, .inl hservers, Entries.lookup_insert_self _ _ _,
          fun key hkey => Entries.lookup_insert_of_ne hkey _ _, ?_, fun key hkey => ?_⟩
        · exact Entries.lookup_swapRemove_self hdistinct
        · exact Entries.lookup_swapRemove_of_ne hdistinct hkey
      | _ => cases hservers
    · cases h
  · cases h

/-- The entry is removed without a trace when there was none. -/
theorem disconnected_connected (bridgePath : String) {entries servers : List (String × Value)}
    (hservers : entries.lookup "mcpServers" = some (.object servers))
    (hentry : servers.lookup "dopedb" = none) :
    disconnected (connected bridgePath (.object entries)) = some (.object entries) := by
  have hconnected : connected bridgePath (.object entries) =
      .object (Entries.insert "mcpServers"
        (.object (Entries.insert "dopedb" (bridgeEntry bridgePath) servers)) entries) := by
    simp only [connected, entriesOf, hservers, Option.elim_some]
  rw [hconnected, disconnected, entriesOf, Entries.lookup_insert_self]
  dsimp only
  rw [Entries.lookup_insert_self, Option.isSome_some, if_pos rfl,
    Entries.swapRemove_insert_of_not_mem hentry, Entries.insert_insert,
    Entries.insert_of_lookup hservers]

/-! ### Calls -/

section Calls

variable {x : SerdeJson} {a : Answers} {bridgePath : String} {files : Files}

theorem readConfig_eq_ok_iff {message : String → String} {bytes : List UInt8}
    {root : Subtype KeysDistinct} : readConfig x a message bytes = .ok root ↔
      ∃ s, a.readToString bytes = .ok s ∧ x.fromStr s = .ok root := by
  unfold readConfig
  rw [Except.bind_eq_ok]
  refine exists_congr fun s => and_congr_right fun _ => ?_
  cases x.fromStr s <;> simp [Except.mapError]

theorem fromUTF8?_of_readToString {bytes : List UInt8} {s : String}
    (h : a.readToString bytes = .ok s) : String.fromUTF8? ⟨bytes.toArray⟩ = some s := by
  unfold Answers.readToString at h
  split at h
  · cases h
  · split at h
    · rename_i s' hs'
      rw [hs', Except.ok.inj h]
    · cases h

theorem holds_of_connectRoot {v : Value} (h : connectRoot x a files = .ok v) :
    Holds x files v := by
  unfold connectRoot at h
  unfold Holds
  cases hconfig : files.config with
  | none =>
    rw [hconfig] at h
    exact (Except.ok.inj h).symm
  | some bytes =>
    rw [hconfig] at h
    dsimp only at h
    cases hread : readConfig x a _ bytes with
    | error e =>
      rw [hread] at h
      cases h
    | ok root =>
      rw [hread] at h
      obtain ⟨s, hs, hroot⟩ := readConfig_eq_ok_iff.1 hread
      exact ⟨s, root, fromUTF8?_of_readToString hs, hroot, Except.ok.inj h⟩

/-- A configuration holds one value. -/
theorem Holds.unique {v v' : Value} (h : Holds x files v) (h' : Holds x files v') : v = v' := by
  unfold Holds at h h'
  cases hconfig : files.config with
  | none =>
    rw [hconfig] at h h'
    rw [h, h']
  | some bytes =>
    rw [hconfig] at h h'
    obtain ⟨s, root, hs, hroot, rfl⟩ := h
    obtain ⟨s', root', hs', hroot', rfl⟩ := h'
    obtain rfl := Option.some.inj (hs.symm.trans hs')
    rw [Except.ok.inj (hroot.symm.trans hroot')]

@[simp] theorem backedUp_config (a : Answers) (files : Files) :
    (backedUp a files).config = files.config := by
  unfold backedUp
  split <;> rfl

theorem writeConfig_snd_config (root : Value) (message : String) (files : Files) :
    (writeConfig x a root message files).2.config =
      a.config.left (utf8 (x.toStringPretty root)) := by
  unfold writeConfig
  dsimp only
  split <;> rfl

theorem writeConfig_eq_ok {root : Value} {message message' : String}
    (h : (writeConfig x a root message files).1 = .ok message') : a.config = .written := by
  unfold writeConfig at h
  dsimp only at h
  split at h
  · assumption
  · cases h

/-- Connecting fails before it writes, or writes the value with the entry. -/
theorem connectClaudeDesktop_cases (x : SerdeJson) (a : Answers) (bridgePath : String)
    (files : Files) :
    (∃ e, connectClaudeDesktop x a bridgePath files = (.error e, files)) ∨
    ∃ v message, a.home = true ∧ connectRoot x a files = .ok v ∧
      connectClaudeDesktop x a bridgePath files =
        writeConfig x a (connected bridgePath v) message (backedUp a files) := by
  unfold connectClaudeDesktop
  by_cases hhome : a.home = true
  · rw [if_neg (not_not.2 hhome)]
    cases hroot : connectRoot x a files with
    | error e => exact .inl ⟨e, rfl⟩
    | ok v => exact .inr ⟨v, _, hhome, rfl, rfl⟩
  · rw [if_pos hhome]
    exact .inl ⟨_, rfl⟩

/-- Disconnecting writes nothing, or the value without the entry. -/
theorem disconnectClaudeDesktop_cases (x : SerdeJson) (a : Answers) (files : Files) :
    (disconnectClaudeDesktop x a files).2 = files ∨
    ∃ v v' message, a.home = true ∧ connectRoot x a files = .ok v ∧ KeysDistinct v ∧
      disconnected v = some v' ∧ disconnectClaudeDesktop x a files =
        writeConfig x a v' message (backedUp a files) := by
  unfold disconnectClaudeDesktop
  by_cases hhome : a.home = true
  · rw [if_neg (not_not.2 hhome)]
    cases hconfig : files.config with
    | none => exact .inl rfl
    | some bytes =>
      dsimp only
      cases hread : readConfig x a _ bytes with
      | error e => exact .inl rfl
      | ok root =>
        dsimp only
        cases hremoved : disconnected root.1 with
        | none => exact .inl rfl
        | some v' =>
          refine .inr ⟨root.1, v', _, hhome, ?_, root.2, hremoved, rfl⟩
          rw [connectRoot, hconfig]
          dsimp only
          rw [readConfig_eq_ok_iff.2 (readConfig_eq_ok_iff.1 hread)]
          rfl
  · rw [if_pos hhome]
    exact .inl rfl

/-- The value a configuration was written from is what the next call reads of it, if it reads
anything. -/
theorem connectRoot_of_readsBack {a' : Answers} {v w : Value} (hback : ReadsBack x w)
    (hconfig : files.config = some (utf8 (x.toStringPretty w)))
    (h : connectRoot x a' files = .ok v) : v = w := by
  refine (holds_of_connectRoot h).unique ?_
  obtain ⟨root, hroot, hw⟩ := hback
  rw [Holds, hconfig]
  exact ⟨_, root, fromUTF8?_utf8 _, hroot, hw⟩

/-- A second call writes what the first one wrote. -/
theorem connect_twice {a' : Answers} {v : Value} {message message' : String}
    (hv : Holds x files v) (hback : ReadsBack x (connected bridgePath v))
    (h : (connectClaudeDesktop x a bridgePath files).1 = .ok message)
    (h' : (connectClaudeDesktop x a' bridgePath
      (connectClaudeDesktop x a bridgePath files).2).1 = .ok message') :
    (connectClaudeDesktop x a' bridgePath (connectClaudeDesktop x a bridgePath files).2).2.config =
      (connectClaudeDesktop x a bridgePath files).2.config := by
  obtain ⟨e, hfail⟩ | ⟨v₁, _, -, hroot, hwrite⟩ := connectClaudeDesktop_cases x a bridgePath files
  · rw [hfail] at h
    cases h
  obtain rfl := (holds_of_connectRoot hroot).unique hv
  have hfirst : (connectClaudeDesktop x a bridgePath files).2.config =
      some (utf8 (x.toStringPretty (connected bridgePath v₁))) := by
    rw [hwrite] at h ⊢
    rw [writeConfig_snd_config, writeConfig_eq_ok h]
    rfl
  obtain ⟨e, hfail⟩ | ⟨v₂, _, -, hroot', hwrite'⟩ := connectClaudeDesktop_cases x a' bridgePath
    (connectClaudeDesktop x a bridgePath files).2
  · rw [hfail] at h'
    cases h'
  rw [connectRoot_of_readsBack hback hfirst hroot', connected_connected] at hwrite'
  rw [hwrite'] at h' ⊢
  rw [writeConfig_snd_config, writeConfig_eq_ok h', hfirst]
  rfl

/-- Disconnecting writes what there was before the bridge was entered. -/
theorem disconnect_connect {a' : Answers} {entries servers : List (String × Value)}
    {message message' : String} (hv : Holds x files (.object entries))
    (hservers : entries.lookup "mcpServers" = some (.object servers))
    (hentry : servers.lookup "dopedb" = none)
    (hback : ReadsBack x (connected bridgePath (.object entries)))
    (h : (connectClaudeDesktop x a bridgePath files).1 = .ok message)
    (h' : (disconnectClaudeDesktop x a'
      (connectClaudeDesktop x a bridgePath files).2).1 = .ok message') :
    (disconnectClaudeDesktop x a' (connectClaudeDesktop x a bridgePath files).2).2.config =
      some (utf8 (x.toStringPretty (.object entries))) := by
  obtain ⟨e, hfail⟩ | ⟨v₁, _, -, hroot, hwrite⟩ := connectClaudeDesktop_cases x a bridgePath files
  · rw [hfail] at h
    cases h
  obtain rfl := (holds_of_connectRoot hroot).unique hv
  have hfirst : (connectClaudeDesktop x a bridgePath files).2.config =
      some (utf8 (x.toStringPretty (connected bridgePath (.object entries)))) := by
    rw [hwrite] at h ⊢
    rw [writeConfig_snd_config, writeConfig_eq_ok h]
    rfl
  generalize (connectClaudeDesktop x a bridgePath files).2 = files' at hfirst h' ⊢
  have hremoved := disconnected_connected bridgePath hservers hentry
  obtain ⟨root, hparsed, hback⟩ := hback
  unfold disconnectClaudeDesktop at h' ⊢
  by_cases hhome : a'.home = true
  · rw [if_neg (not_not.2 hhome), hfirst] at h' ⊢
    dsimp only at h' ⊢
    cases hread : readConfig x a' _ (utf8 (x.toStringPretty (connected bridgePath
        (.object entries)))) with
    | error e =>
      rw [hread] at h'
      cases h'
    | ok root' =>
      obtain ⟨s, hs, hroot'⟩ := readConfig_eq_ok_iff.1 hread
      obtain rfl := Option.some.inj ((fromUTF8?_utf8 _).symm.trans (fromUTF8?_of_readToString hs))
      obtain rfl := Except.ok.inj (hparsed.symm.trans hroot')
      rw [hread] at h'
      dsimp only at h' ⊢
      rw [hback, hremoved] at h' ⊢
      dsimp only at h' ⊢
      rw [writeConfig_snd_config, writeConfig_eq_ok h']
      rfl
  · rw [if_pos hhome] at h'
    cases h'

end Calls

/-- What is kept was written safely. -/
theorem KeepsConfig.writesSafely {x : SerdeJson} {a : Answers} {bridgePath : String}
    {files : Files} (h : KeepsConfig x a bridgePath files) : WritesSafely x a files := by
  intro hhome v hroot
  obtain ⟨message, hwrite⟩ : ∃ message, connectClaudeDesktop x a bridgePath files =
      writeConfig x a (connected bridgePath v) message (backedUp a files) := by
    rw [connectClaudeDesktop, if_neg (not_not.2 hhome), hroot]
    exact ⟨_, rfl⟩
  have hconnect := h.connect
  rw [hwrite] at hconnect
  cases hconfig : a.config with
  | written =>
    obtain ⟨e, he, -⟩ | ⟨_, v', _, -, hv', hedited, -⟩ := hconnect
    · rw [writeConfig, hconfig] at he
      cases he
    · rw [(holds_of_connectRoot hroot).unique hv']
      exact hedited.mergeable
  | failed left error =>
    obtain ⟨_, -, hsame⟩ | ⟨message, _, _, hok, -⟩ := hconnect
    · rw [writeConfig_snd_config, hconfig] at hsame
      exact hsame
    · rw [writeConfig, hconfig] at hok
      cases hok

/-- **Nothing of the user is lost exactly when every write that is come to is of a value with room
for the entry, or leaves the file.** -/
theorem keepsConfig_iff (x : SerdeJson) (a : Answers) (bridgePath : String) (files : Files) :
    KeepsConfig x a bridgePath files ↔ WritesSafely x a files := by
  constructor
  · exact fun h => h.writesSafely
  · intro h
    refine ⟨?_, ?_, fun v message message' a' hv hback hok hok' => connect_twice hv hback hok hok',
      fun entries servers message message' a' hv hservers hentry hback hok hok' =>
        disconnect_connect hv hservers hentry hback hok hok'⟩
    · obtain ⟨e, hfail⟩ | ⟨v, message, hhome, hroot, hwrite⟩ :=
        connectClaudeDesktop_cases x a bridgePath files
      · exact .inl ⟨e, by rw [hfail], by rw [hfail]⟩
      · have hsafe := h hhome v hroot
        rw [hwrite, writeConfig_snd_config, writeConfig]
        cases hconfig : a.config with
        | written =>
          rw [hconfig] at hsafe
          exact .inr ⟨_, v, _, rfl, holds_of_connectRoot hroot, edited_connected bridgePath hsafe,
            rfl⟩
        | failed left error =>
          rw [hconfig] at hsafe
          exact .inl ⟨error, rfl, hsafe⟩
    · obtain hsame | ⟨v, v', message, hhome, hroot, hdistinct, hremoved, hwrite⟩ :=
        disconnectClaudeDesktop_cases x a files
      · exact .inl (by rw [hsame])
      · have hsafe := h hhome v hroot
        rw [hwrite, writeConfig_snd_config, writeConfig]
        cases hconfig : a.config with
        | written =>
          exact .inr ⟨_, v, v', rfl, holds_of_connectRoot hroot,
            edited_disconnected hdistinct hremoved, rfl⟩
        | failed left error =>
          rw [hconfig] at hsafe
          exact .inl hsafe

/-! ### A list of servers -/

/-- The configuration `{"mcpServers":["a"]}`. -/
def sampleText : String := "\x7b\"mcpServers\":[\"a\"]\x7d"

/-- The value of the sample. -/
def sampleRoot : Subtype KeysDistinct :=
  ⟨.object [("mcpServers", .array [.string "a"])],
    .object (by decide) (by simpa using .array (by simpa using .string "a"))⟩

/-- The parser and the printer at the sample and at what is written for it. -/
def sampleSerde : SerdeJson where
  fromStr s :=
    if s = sampleText then .ok sampleRoot else .error "expected value at line 1 column 1"
  toStringPretty _ := "\x7b\n  \"mcpServers\": \x7b\n    \"dopedb\": \x7b\n      \"command\": " ++
    "\"bridge\"\n    \x7d\n  \x7d\n\x7d"

/-- A list of servers is replaced. -/
theorem keepsConfig_list : ¬ ∀ (x : SerdeJson) (bridgePath : String) (files : Files),
    KeepsConfig x ⟨true, none, .written, .written⟩ bridgePath files := by
  intro h
  have hroot : connectRoot sampleSerde ⟨true, none, .written, .written⟩
      ⟨some (utf8 sampleText), none⟩ = .ok sampleRoot.1 := by
    have hread : Answers.readToString ⟨true, none, .written, .written⟩ (utf8 sampleText) =
        .ok sampleText := by
      rw [Answers.readToString, fromUTF8?_utf8]
    have hparse : sampleSerde.fromStr sampleText = .ok sampleRoot := by
      simp only [sampleSerde, if_true]
    rw [connectRoot]
    dsimp only
    rw [readConfig_eq_ok_iff.2 ⟨_, hread, hparse⟩]
    rfl
  obtain ⟨entries, hentries, hservers⟩ :=
    (h sampleSerde "bridge" ⟨some (utf8 sampleText), none⟩).writesSafely rfl _ hroot
  obtain rfl := Value.object.inj hentries
  obtain ⟨servers, hservers⟩ := hservers _ rfl
  cases hservers

end Mcp
end AgentDb
