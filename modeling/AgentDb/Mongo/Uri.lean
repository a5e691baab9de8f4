import AgentDb.Error
import AgentDb.Lib.PercentCoding
import AgentDb.Lib.Sorting
import AgentDb.Services.ConnectionEdits

/-!
# The connection string: `mongo/mod.rs`

`buildUri` writes a `mongodb://` string out of a profile and a secret. `parseUri` reads one by the
grammar of such strings: the scheme, the user up to the last `@`, the hosts up to `/`, the database
up to `?`, the options between `&`. `buildUri_splits_iff` says when what was read is what was
written.

The name of the database is written as it is, and only the delimiters are refused in it; a `%` is
not, and the reader takes it for an escape.
-/

namespace AgentDb
namespace Mongo

open PercentCoding Sorting Store Services TextCode

/-! ### Writing -/

/-- What `build_uri` reads of a `ConnectionProfile`. -/
structure UriProfile where
  host : String
  port : UInt16
  database : String
  username : String
  extraParams : Table String String

namespace UriProfile

variable (profile : UriProfile)

def isSrv : Bool :=
  (profile.extraParams.get "srv").any fun v => eqIgnoreAsciiCase (trim v) "true"

def hostText : String := if trim profile.host = "" then "localhost" else trim profile.host

def authority : String :=
  if profile.isSrv ∨ ',' ∈ profile.hostText.toList ∨ ':' ∈ profile.hostText.toList then
    profile.hostText
  else profile.hostText ++ ":" ++ toString profile.port.toNat

/-- Every extra parameter but `srv`. -/
def options : List (String × String) :=
  profile.extraParams.rows.filter fun r => r.1 ≠ "srv"

end UriProfile

/-- `encode_component`. -/
def encodeComponent (s : String) : String := String.ofList (encode s)

/-- What is written of the user, if there is one. -/
def userinfo (username secret : String) : String :=
  if username = "" then ""
  else encodeComponent username ++ (if secret = "" then "" else ":" ++ encodeComponent secret) ++
    "@"

/-- The options, the first after `?` and each other after `&`. -/
def optionsText (params : List (String × String)) : String :=
  String.join (params.zipIdx.map fun p =>
    (if p.2 = 0 then "?" else "&") ++ encodeComponent p.1.1 ++ "=" ++ encodeComponent p.1.2)

/-- `build_uri`. `debug` is the `Debug` text of a string. -/
def buildUri (debug : String → String) (profile : UriProfile) (secret : String) :
    AppResult String :=
  let database := trim profile.database
  if database = "" then .error (.config "MongoDB connections need a database name")
  else if database.toList.any (· ∈ ['/', '\\', '?', '#', '@', ' ']) then
    .error (.config ("invalid MongoDB database name " ++ debug database))
  else
    .ok ((if profile.isSrv then "mongodb+srv" else "mongodb") ++ "://" ++
      userinfo profile.username secret ++ profile.authority ++ "/" ++ database ++
      optionsText (sortBy (fun r => toLex r) profile.options))

/-! ### Reading -/

/-- A text up to the first delimiter, and what follows it if there is one. -/
def cut (c : Char) (cs : List Char) : List Char × Option (List Char) :=
  (cs.takeWhile (· ≠ c), (cs.dropWhile (· ≠ c)).tail?)

/-- A text from the last delimiter on, and what precedes it if there is one. -/
def cutLast (c : Char) (cs : List Char) : Option (List Char) × List Char :=
  ((cut c cs.reverse).2.map List.reverse, (cut c cs.reverse).1.reverse)

/-- The parts of a connection string. -/
structure UriParts where
  srv : Bool
  username : Option String
  secret : Option String
  hosts : List (List Char)
  database : String
  options : List (String × String)
  deriving DecidableEq

/-- What follows `://`, and whether the scheme is `mongodb+srv`. -/
def cutScheme (cs : List Char) : Option (Bool × List Char) :=
  if "mongodb+srv://".toList <+: cs then some (true, cs.drop 14)
  else if "mongodb://".toList <+: cs then some (false, cs.drop 10)
  else none

def decodeUserinfo : Option (List Char) → Option (Option String × Option String)
  | none => some (none, none)
  | some cs => do
      let username ← decode (cut ':' cs).1
      match (cut ':' cs).2 with
      | none => return (some username, none)
      | some secret => return (some username, some (← decode secret))

def decodeOption (cs : List Char) : Option (String × String) := do
  let key ← decode (cut '=' cs).1
  let value ← decode (← (cut '=' cs).2)
  return (key, value)

def decodeOptions : Option (List Char) → Option (List (String × String))
  | none => some []
  | some cs => (cs.splitOn '&').mapM decodeOption

/-- The parts of a connection string, with the escapes in them decoded. The hosts are given as they
stand. -/
def parseUri (uri : String) : Option UriParts := do
  let (srv, rest) ← cutScheme uri.toList
  let (username, secret) ← decodeUserinfo (cutLast '@' rest).1
  let (hosts, rest) := cut '/' (cutLast '@' rest).2
  let (database, options) := cut '?' (← rest)
  return ⟨srv, username, secret, hosts.splitOn ',', ← decode database, ← decodeOptions options⟩

/-- The parts are those of a profile and a secret. -/
structure NamesProfile (profile : UriProfile) (secret : String) (parts : UriParts) : Prop where
  srv : parts.srv = profile.isSrv
  username : parts.username = if profile.username = "" then none else some profile.username
  secret : parts.secret = if profile.username = "" ∨ secret = "" then none else some secret
  hosts : parts.hosts =
    if profile.isSrv ∨ ',' ∈ profile.hostText.toList ∨ ':' ∈ profile.hostText.toList then
      profile.hostText.toList.splitOn ','
    else [profile.hostText.toList ++ ':' :: (toString profile.port.toNat).toList]
  database : parts.database = trim profile.database
  options : parts.options.Perm profile.options

/-! ### Cutting what was joined -/

theorem cut_append {c : Char} {cs : List Char} (h : c ∉ cs) (ds : List Char) :
    cut c (cs ++ c :: ds) = (cs, some ds) := by
  have hcs : ∀ d ∈ cs, decide (d ≠ c) = true := by
    intro d hd
    exact decide_eq_true (by rintro rfl; exact h hd)
  rw [cut, List.takeWhile_append_of_pos hcs, List.dropWhile_append_of_pos hcs,
    List.takeWhile_cons_of_neg (by simp), List.dropWhile_cons_of_neg (by simp), List.append_nil]
  rfl

theorem cut_of_not_mem {c : Char} {cs : List Char} (h : c ∉ cs) : cut c cs = (cs, none) := by
  have hcs : ∀ d ∈ cs, decide (d ≠ c) = true := by
    intro d hd
    exact decide_eq_true (by rintro rfl; exact h hd)
  rw [cut, List.takeWhile_eq_self_iff.2 hcs, List.dropWhile_eq_nil_iff.2 hcs]
  rfl

theorem cutLast_append {c : Char} (cs : List Char) {ds : List Char} (h : c ∉ ds) :
    cutLast c (cs ++ c :: ds) = (some cs, ds) := by
  rw [cutLast, List.reverse_append, List.reverse_cons, List.append_assoc, List.singleton_append,
    cut_append (List.mem_reverse.not.2 h), Option.map_some, List.reverse_reverse,
    List.reverse_reverse]

theorem cutLast_of_not_mem {c : Char} {cs : List Char} (h : c ∉ cs) :
    cutLast c cs = (none, cs) := by
  rw [cutLast, cut_of_not_mem (List.mem_reverse.not.2 h), Option.map_none, List.reverse_reverse]

/-! ### The user -/

theorem toList_encodeComponent (s : String) : (encodeComponent s).toList = encode s :=
  String.toList_ofList

/-- What stands before the `@`. -/
def userText (username secret : String) : List Char :=
  encode username ++ if secret = "" then [] else ':' :: encode secret

theorem toList_userinfo {username : String} (h : username ≠ "") (secret : String) :
    (userinfo username secret).toList = userText username secret ++ ['@'] := by
  rw [userinfo, if_neg h, userText, String.toList_append, String.toList_append,
    toList_encodeComponent]
  split_ifs
  · rfl
  · rw [String.toList_append, toList_encodeComponent]
    rfl

theorem decodeUserinfo_userText (username secret : String) :
    decodeUserinfo (some (userText username secret)) =
      some (some username, if secret = "" then none else some secret) := by
  rw [userText]
  split_ifs with h
  · rw [List.append_nil]
    simp only [decodeUserinfo, cut_of_not_mem (not_mem_encode (s := username) (c := ':') rfl),
      decode_encode, Option.bind_eq_bind, Option.bind_some, Option.pure_def]
  · simp only [decodeUserinfo, cut_append (not_mem_encode (s := username) (c := ':') rfl),
      decode_encode, Option.bind_eq_bind, Option.bind_some, Option.pure_def]

/-- **The user is read up to the `@` after it**, however many there are in what is encoded. -/
theorem cutLast_userinfo {cs : List Char} (h : '@' ∉ cs) (username secret : String) :
    (cutLast '@' ((userinfo username secret).toList ++ cs)).2 = cs ∧
      decodeUserinfo (cutLast '@' ((userinfo username secret).toList ++ cs)).1 =
        some (if username = "" then none else some username,
          if username = "" ∨ secret = "" then none else some secret) := by
  by_cases husername : username = ""
  · subst husername
    rw [show (userinfo "" secret).toList = [] from rfl, List.nil_append, cutLast_of_not_mem h]
    exact ⟨rfl, rfl⟩
  · rw [toList_userinfo husername, List.append_assoc, List.singleton_append, cutLast_append _ h,
      decodeUserinfo_userText]
    simp only [husername, false_or, if_false, and_self]

/-! ### The options -/

/-- One option as it is written. -/
def optionText (r : String × String) : List Char := encode r.1 ++ '=' :: encode r.2

theorem decodeOption_optionText (r : String × String) : decodeOption (optionText r) = some r := by
  simp only [decodeOption, optionText, cut_append (not_mem_encode (s := r.1) (c := '=') rfl),
    decode_encode, Option.bind_eq_bind, Option.bind_some, Option.pure_def]

theorem not_mem_optionText {c : Char} (hplain : isPlain c = false) (heq : c ≠ '=')
    (r : String × String) : c ∉ optionText r := by
  simp only [optionText, List.mem_append, List.mem_cons, not_or]
  exact ⟨not_mem_encode hplain, heq, not_mem_encode hplain⟩

/-- Past the first option every one follows a `&`. -/
theorem toList_join_zipIdx (params : List (String × String)) (n : ℕ) :
    (String.join ((params.zipIdx (n + 1)).map fun p =>
      (if p.2 = 0 then "?" else "&") ++ encodeComponent p.1.1 ++ "=" ++
        encodeComponent p.1.2)).toList = params.flatMap fun r => '&' :: optionText r := by
  induction params generalizing n with
  | nil => rfl
  | cons r params ih =>
    rw [List.zipIdx_cons, List.map_cons, String.join_cons, String.toList_append, ih,
      List.flatMap_cons, if_neg (Nat.succ_ne_zero n)]
    simp only [String.toList_append, toList_encodeComponent, optionText, List.append_assoc,
      List.cons_append]
    rfl

theorem intercalate_cons {α : Type} (sep : α) (l : List α) (ls : List (List α)) :
    [sep].intercalate (l :: ls) = l ++ ls.flatMap fun l => sep :: l := by
  induction ls generalizing l with
  | nil => simp
  | cons l' ls ih =>
    rw [List.intercalate_cons_cons, ih, List.flatMap_cons, List.append_assoc, List.singleton_append,
      List.cons_append]

theorem toList_optionsText (r : String × String) (params : List (String × String)) :
    (optionsText (r :: params)).toList =
      '?' :: ['&'].intercalate ((r :: params).map optionText) := by
  rw [optionsText, List.zipIdx_cons, List.map_cons, String.join_cons, String.toList_append,
    toList_join_zipIdx, List.map_cons, intercalate_cons, List.flatMap_map, if_pos rfl]
  simp only [String.toList_append, toList_encodeComponent, optionText, List.append_assoc,
    List.cons_append]
  rfl

theorem not_mem_optionsText {c : Char} (hplain : isPlain c = false)
    (hc : c ∉ ['=', '?', '&']) (params : List (String × String)) :
    c ∉ (optionsText params).toList := by
  simp only [List.mem_cons, List.not_mem_nil, or_false, not_or] at hc
  cases params with
  | nil => exact List.not_mem_nil
  | cons r params =>
    rw [toList_optionsText, List.map_cons, intercalate_cons]
    simp only [List.mem_cons, List.mem_append, List.mem_flatMap, List.mem_map, not_or, not_exists,
      not_and]
    refine ⟨hc.2.1, not_mem_optionText hplain hc.1 r, ?_⟩
    rintro _ ⟨r', -, rfl⟩
    exact ⟨hc.2.2, not_mem_optionText hplain hc.1 r'⟩

/-- **The options are read back, each once and in the order they were written in.** -/
theorem cut_optionsText {cs : List Char} (h : '?' ∉ cs) (params : List (String × String)) :
    (cut '?' (cs ++ (optionsText params).toList)).1 = cs ∧
      decodeOptions (cut '?' (cs ++ (optionsText params).toList)).2 = some params := by
  cases params with
  | nil =>
    rw [show (optionsText []).toList = [] from rfl, List.append_nil, cut_of_not_mem h]
    exact ⟨rfl, rfl⟩
  | cons r params =>
    rw [toList_optionsText, cut_append h]
    refine ⟨rfl, ?_⟩
    have hcut : ∀ l ∈ (r :: params).map optionText, '&' ∉ l := by
      intro l hl
      obtain ⟨r', -, rfl⟩ := List.mem_map.1 hl
      exact not_mem_optionText rfl (by decide) r'
    have hdecode : decodeOption ∘ optionText = (pure : String × String → Option _) :=
      funext decodeOption_optionText
    rw [decodeOptions, List.splitOn_intercalate _ hcut (List.cons_ne_nil _ _), List.mapM_map,
      hdecode, List.mapM_pure, List.map_id']
    rfl

/-! ### The whole string -/

/-- A host that a connection string can name: it does not end the part it stands in. -/
def ValidHost (profile : UriProfile) : Prop :=
  '@' ∉ profile.hostText.toList ∧ '/' ∉ profile.hostText.toList

theorem not_mem_toString_nat {c : Char} (h : c.isDigit = false) (n : ℕ) :
    c ∉ (toString n).toList := by
  intro hc
  change c ∈ (Nat.repr n).toList at hc
  rw [Nat.repr_eq_ofList_toDigits, String.toList_ofList] at hc
  rw [Nat.isDigit_of_mem_toDigits (by decide) (by decide) hc] at h
  cases h

theorem not_mem_authority {profile : UriProfile} {c : Char} (h : c ∉ profile.hostText.toList)
    (hdigit : c.isDigit = false) (hcolon : c ≠ ':') : c ∉ profile.authority.toList := by
  rw [UriProfile.authority]
  split_ifs
  · exact h
  · simp only [String.toList_append, List.mem_append, not_or]
    refine ⟨⟨h, ?_⟩, not_mem_toString_nat hdigit _⟩
    exact fun hc => hcolon (List.mem_singleton.1 hc)

/-- The hosts of a profile, with the port if it is written. -/
theorem splitOn_authority (profile : UriProfile) : profile.authority.toList.splitOn ',' =
    if profile.isSrv ∨ ',' ∈ profile.hostText.toList ∨ ':' ∈ profile.hostText.toList then
      profile.hostText.toList.splitOn ','
    else [profile.hostText.toList ++ ':' :: (toString profile.port.toNat).toList] := by
  rw [UriProfile.authority]
  split_ifs with h
  · rfl
  · rw [not_or, not_or] at h
    have happ : (profile.hostText ++ ":" ++ toString profile.port.toNat).toList =
        profile.hostText.toList ++ ':' :: (toString profile.port.toNat).toList := by
      rw [String.toList_append, String.toList_append, List.append_assoc]
      rfl
    rw [happ]
    refine List.splitOn_eq_singleton ?_
    simp only [List.mem_append, List.mem_cons, not_or]
    exact ⟨h.2.1, by decide, not_mem_toString_nat rfl _⟩

/-- What is written after the scheme. -/
def restText (profile : UriProfile) (secret : String) : List Char :=
  (userinfo profile.username secret).toList ++ (profile.authority.toList ++ '/' ::
    ((trim profile.database).toList ++
      (optionsText (sortBy (fun r => toLex r) profile.options)).toList))

variable {debug : String → String} {profile : UriProfile} {secret uri : String}

theorem toList_scheme (srv : Bool) (cs : List Char) :
    (if srv then "mongodb+srv" else "mongodb").toList ++ ("://".toList ++ cs) =
      (if srv then "mongodb+srv://" else "mongodb://").toList ++ cs := by
  rw [← List.append_assoc]
  exact congrArg (· ++ cs) (by cases srv <;> decide)

/-- What a string that was written consists of, and what its database does not hold. -/
theorem buildUri_eq_ok (h : buildUri debug profile secret = .ok uri) :
    '?' ∉ (trim profile.database).toList ∧ '@' ∉ (trim profile.database).toList ∧
      uri.toList = (if profile.isSrv then "mongodb+srv://" else "mongodb://").toList ++
        restText profile secret := by
  rw [buildUri] at h
  by_cases hempty : trim profile.database = ""
  · rw [if_pos hempty] at h
    cases h
  by_cases hany : (trim profile.database).toList.any (· ∈ ['/', '\\', '?', '#', '@', ' '])
  · rw [if_neg hempty, if_pos hany] at h
    cases h
  have hno : ∀ c ∈ ['/', '\\', '?', '#', '@', ' '], c ∉ (trim profile.database).toList := by
    intro c hc hmem
    exact hany (List.any_eq_true.2 ⟨c, hmem, decide_eq_true hc⟩)
  rw [if_neg hempty, if_neg hany] at h
  obtain rfl := Except.ok.inj h
  refine ⟨hno _ (by decide), hno _ (by decide), ?_⟩
  have hslash : "/".toList = ['/'] := rfl
  simp only [restText, String.toList_append, List.append_assoc, toList_scheme, hslash,
    List.cons_append, List.nil_append]

theorem cutScheme_append (srv : Bool) (cs : List Char) :
    cutScheme ((if srv then "mongodb+srv://" else "mongodb://").toList ++ cs) = some (srv, cs) := by
  cases srv <;> rfl

theorem parseUri_of_buildUri (hhost : ValidHost profile)
    (h : buildUri debug profile secret = .ok uri) :
    parseUri uri = (decode (trim profile.database).toList).map fun database =>
      ⟨profile.isSrv, if profile.username = "" then none else some profile.username,
        if profile.username = "" ∨ secret = "" then none else some secret,
        profile.authority.toList.splitOn ',', database,
        sortBy (fun r => toLex r) profile.options⟩ := by
  obtain ⟨hquery, hat, htext⟩ := buildUri_eq_ok h
  have hatRest : '@' ∉ profile.authority.toList ++ '/' :: ((trim profile.database).toList ++
      (optionsText (sortBy (fun r => toLex r) profile.options)).toList) := by
    simp only [List.mem_append, List.mem_cons, not_or]
    exact ⟨not_mem_authority hhost.1 rfl (by decide), by decide, hat,
      not_mem_optionsText rfl (by decide) _⟩
  obtain ⟨hrest, huser⟩ := cutLast_userinfo hatRest profile.username secret
  obtain ⟨hdatabase, hoptions⟩ :=
    cut_optionsText hquery (sortBy (fun r => toLex r) profile.options)
  simp only [parseUri, htext, cutScheme_append, Option.bind_eq_bind, Option.bind_some, restText,
    huser, hrest, cut_append (not_mem_authority hhost.2 rfl (by decide)), hdatabase, hoptions]
  cases decode (trim profile.database).toList <;> rfl

/-- **A connection string is read back as the profile and the secret it was written from exactly
when the name of the database has no escape in it.** Of everything else nothing ends its part early:
what the user typed is encoded, and the delimiters are refused in the database. -/
theorem buildUri_splits_iff (hhost : ValidHost profile)
    (h : buildUri debug profile secret = .ok uri) :
    (∃ parts, parseUri uri = some parts ∧ NamesProfile profile secret parts) ↔
      ¬HasEscape (utf8 (trim profile.database)) := by
  rw [← decode_toList_iff, parseUri_of_buildUri hhost h]
  constructor
  · rintro ⟨parts, hparts, hnames⟩
    obtain ⟨database, hdecode, rfl⟩ := Option.map_eq_some_iff.1 hparts
    rw [hdecode]
    exact congrArg some hnames.database
  · intro hdecode
    rw [hdecode]
    exact ⟨_, rfl, rfl, rfl, rfl, splitOn_authority profile, rfl, sortBy_perm _ _⟩

/-- A database whose name has a `%` and two digits in it. -/
def escapedDatabase : UriProfile :=
  ⟨"db.example.com", 27017, "a%41", "reader", Table.empty⟩

theorem trim_escapedDatabase : trim escapedDatabase.database = "a%41" := by decide +kernel

theorem validHost_escapedDatabase : ValidHost escapedDatabase := by
  rw [ValidHost]
  decide +kernel

theorem buildUri_escapedDatabase : buildUri id escapedDatabase "pw" =
    .ok "mongodb://reader:pw@db.example.com:27017/a%41" := by
  decide +kernel

/-- `a%41` is read as `aA`. -/
theorem buildUri_notRead : ValidHost escapedDatabase ∧
    buildUri id escapedDatabase "pw" = .ok "mongodb://reader:pw@db.example.com:27017/a%41" ∧
      ¬∃ parts, parseUri "mongodb://reader:pw@db.example.com:27017/a%41" = some parts ∧
        NamesProfile escapedDatabase "pw" parts := by
  refine ⟨validHost_escapedDatabase, buildUri_escapedDatabase, ?_⟩
  rintro ⟨parts, hparts, hnames⟩
  have hread : (parseUri "mongodb://reader:pw@db.example.com:27017/a%41").map (·.database) =
      some "aA" := by
    decide +kernel
  rw [hparts, Option.map_some, hnames.database, trim_escapedDatabase] at hread
  exact absurd (Option.some.inj hread) (by decide)

theorem buildUri_splits_escapedDatabase : ValidHost escapedDatabase ∧
    buildUri id escapedDatabase "pw" = .ok "mongodb://reader:pw@db.example.com:27017/a%41" ∧
      ((∃ parts, parseUri "mongodb://reader:pw@db.example.com:27017/a%41" = some parts ∧
          NamesProfile escapedDatabase "pw" parts) ↔
        ¬HasEscape (utf8 (trim escapedDatabase.database))) :=
  ⟨validHost_escapedDatabase, buildUri_escapedDatabase,
    buildUri_splits_iff validHost_escapedDatabase buildUri_escapedDatabase⟩

end Mongo
end AgentDb
