import AgentDb.Frontend.SqlStatements
import AgentDb.SqlScript.Parts

/-!
# When the frontend splits like the backend

`Mirrors` is the exact condition under which the SQL screen shows, whatever the engine, the
statements that will run: backslash escapes, which only the backend knows and only for MySQL, move
no cut, and each segment is trimmed and checked for comments alike on both sides.

For the first part, what the two scans of the backend return determines where they cut
(`texts_eq_of_filterMap_eq`): segments that differ have a quote in them, and are not dropped. For
the second, a segment that only the frontend keeps adds a text that the backend never returns
(`not_kept_alone`).
-/

namespace AgentDb
namespace Frontend
namespace SqlStatements

open Lexing Lexer SqlScript

/-! ### Segments -/

/-- The frontend finds more than comments. -/
def Kept (s : List Char) : Prop := jsTrim (stripComments s) ≠ []

instance : DecidablePred Kept := fun _ => inferInstanceAs (Decidable (_ ≠ _))

/-- Both sides find something to execute in the segment or neither does, and what they find is
trimmed alike. -/
def SegmentAlike (seg : List Char) : Prop :=
  (Kept (jsTrim seg) ↔ isEffective (SqlScript.trim seg) = true) ∧
    (isEffective (SqlScript.trim seg) = true → jsTrim seg = SqlScript.trim seg)

instance : DecidablePred SegmentAlike := fun _ => inferInstanceAs (Decidable (_ ∧ _))

/-- The script is split alike for every SQL engine. -/
structure Mirrors (script : String) : Prop where
  escapes : (SqlScript.scanner true).texts ';' script.toList =
    (SqlScript.scanner false).texts ';' script.toList
  segments : ∀ seg ∈ (SqlScript.scanner false).texts ';' script.toList, SegmentAlike seg

theorem isEffective_iff (p : List Char) : isEffective p = true ↔ Effective p := by
  simp only [isEffective, decide_not, Bool.not_eq_eq_eq_not, Bool.not_true,
    decide_eq_false_iff_not]
  exact trim_ne_nil

theorem pushStatement_eq (seg : List Char) : pushStatement seg =
    if isEffective (SqlScript.trim seg) then some (String.ofList (SqlScript.trim seg))
    else none := by
  split_ifs with heffective
  · exact pushStatement_of_effective ((isEffective_iff _).1 heffective)
  · rw [pushStatement]
    exact if_neg fun h => heffective h.2

theorem push_eq (seg : List Char) :
    push seg = if Kept (jsTrim seg) then some (String.ofList (jsTrim seg)) else none := by
  have hnil : ¬ Kept [] := fun h => h rfl
  rw [push]
  by_cases hkept : Kept (jsTrim seg)
  · have hne : jsTrim seg ≠ [] := fun h => hnil (h ▸ hkept)
    rw [if_pos ⟨hne, hkept⟩, if_pos hkept]
  · rw [if_neg hkept]
    exact if_neg fun h => hkept h.2

theorem push_eq_pushStatement_iff (seg : List Char) :
    push seg = pushStatement seg ↔ SegmentAlike seg := by
  rw [push_eq, pushStatement_eq, SegmentAlike]
  by_cases hkept : Kept (jsTrim seg) <;>
    by_cases heffective : isEffective (SqlScript.trim seg) = true <;>
    simp [hkept, heffective, String.ofList_inj]

/-! ### Segments that only the frontend keeps -/

/-- Text that cannot close the start of a comment leaves something to execute. -/
theorem effective_append_right {p z : List Char} (hp : Effective p)
    (hz : ∀ c, z.head? = some c → c ≠ '-' ∧ c ≠ '*') : Effective (p ++ z) := by
  induction p using stripper.ind with
  | nil => exact absurd hp not_effective_nil
  | token c l ih =>
    by_cases hstart : CommentStart (c :: l)
    · rw [effective_comment_iff hstart] at hp
      by_cases hlt : stripper.len (c :: l) < (c :: l).length
      · rw [effective_comment_iff (hstart.append z), stripper_len_append hstart hlt,
          List.drop_append_of_le_length hlt.le]
        exact ih hp
      · rw [List.drop_eq_nil_of_le (by omega)] at hp
        exact absurd hp not_effective_nil
    · have hstart' : ¬ CommentStart (c :: (l ++ z)) := by
        rw [commentStart_iff] at hstart ⊢
        cases l with
        | nil =>
          rw [List.nil_append]
          rintro (⟨-, hhead⟩ | ⟨-, hhead⟩)
          · exact (hz _ hhead).1 rfl
          · exact (hz _ hhead).2 rfl
        | cons d l => exact hstart
      rw [len_stripper hstart, List.drop_succ_cons, List.drop_zero] at ih
      obtain ⟨e, he, hwhite⟩ := hp
      rw [stripComments_cons hstart] at he
      rw [List.cons_append, Effective, stripComments_cons hstart']
      rcases List.mem_append.1 he with he | he
      · exact ⟨e, List.mem_append_left _ he, hwhite⟩
      · obtain ⟨e, he, hwhite⟩ := ih ⟨e, he, hwhite⟩
        exact ⟨e, List.mem_append_right _ he, hwhite⟩

/-- What JavaScript trims and Rust does not. -/
theorem eq_bom_of_isBlank {c : Char} (hc : isBlank c = true) (hblack : isWhitespace c = false) :
    c = '\uFEFF' := by
  have hnat : c.toNat = 0xfeff := by
    simp only [isBlank, Bool.or_eq_true, decide_eq_true_eq, Bool.and_eq_true, List.mem_cons,
      List.not_mem_nil, or_false] at hc
    simp only [isWhitespace, Bool.or_eq_false_iff, Bool.and_eq_false_iff, decide_eq_false_iff_not,
      beq_eq_false_iff_ne] at hblack
    omega
  exact Char.toNat_inj.1 hnat

theorem jsTrim_spec (raw : List Char) : ∃ u v, raw = u ++ jsTrim raw ++ v ∧
    (∀ c ∈ u, isBlank c = true) ∧ ∀ c ∈ v, isBlank c = true := by
  refine ⟨raw.takeWhile isBlank, (raw.dropWhile isBlank).rtakeWhile isBlank, ?_,
    fun c hc => List.mem_takeWhile_imp hc, fun c hc => List.mem_rtakeWhile_imp hc⟩
  show raw = _ ++ (raw.dropWhile isBlank).rdropWhile isBlank ++ _
  rw [List.append_assoc, List.rdropWhile_append_rtakeWhile, List.takeWhile_append_dropWhile]

/-- A trimmed text begins with no white space, and none is trimmed behind it. -/
theorem trim_eq_self {c : Char} {p : List Char} (h : SqlScript.trim (c :: p) = c :: p) :
    isWhitespace c = false ∧ (c :: p).rdropWhile isWhitespace = c :: p := by
  have hblack : isWhitespace c = false := by
    by_contra hwhite
    have hlength := congrArg List.length h
    have hprefix := (List.rdropWhile_prefix isWhitespace (p.dropWhile isWhitespace)).length_le
    have hsuffix := (List.dropWhile_suffix (l := p) isWhitespace).length_le
    rw [trim_eq_rdropWhile, List.dropWhile_cons_of_pos (by simpa using hwhite),
      List.length_cons] at hlength
    omega
  rw [trim_cons hblack] at h
  exact ⟨hblack, h⟩

/-- A segment out of which JavaScript trims a statement of the backend is not dropped by the
backend. -/
theorem not_kept_alone {seg : List Char} (htrim : SqlScript.trim (jsTrim seg) = jsTrim seg)
    (heffective : Effective (jsTrim seg)) : Effective (SqlScript.trim seg) := by
  obtain ⟨u, v, hseg, hu, hv⟩ := jsTrim_spec seg
  have hne : jsTrim seg ≠ [] := by
    intro hnil
    rw [hnil] at heffective
    exact not_effective_nil heffective
  generalize jsTrim seg = p at *
  rw [hseg, List.append_assoc]
  by_cases hwhite : ∀ c ∈ u, isWhitespace c = true
  · -- both trims start at the same place, and what Rust keeps behind is blank
    rw [trim_append hwhite]
    obtain ⟨z, hz, htrimmed⟩ : ∃ z, (∀ c ∈ z, isBlank c = true) ∧
        SqlScript.trim (p ++ v) = p ++ z := by
      obtain ⟨c, p, rfl⟩ := List.exists_cons_of_ne_nil hne
      obtain ⟨hblack, hend⟩ := trim_eq_self htrim
      rw [List.cons_append, trim_cons hblack, ← List.cons_append]
      by_cases hv' : ∃ c ∈ v, isWhitespace c = false
      · exact ⟨v.rdropWhile isWhitespace, fun c hc =>
          hv c ((List.rdropWhile_prefix _ _).subset hc), rdropWhile_append hv' _⟩
      · refine ⟨[], by simp, ?_⟩
        have hall : ∀ c ∈ v.reverse, isWhitespace c = true := by
          intro c hc
          by_contra hblack
          exact hv' ⟨c, List.mem_reverse.1 hc, by simpa using hblack⟩
        rw [List.rdropWhile, List.reverse_append, List.dropWhile_append_of_pos hall,
          ← List.rdropWhile, hend, List.append_nil]
    rw [htrimmed]
    refine effective_append_right heffective fun c hc => ?_
    have hblank := hz c (List.mem_of_head? hc)
    constructor <;> rintro rfl <;> cases hblank
  · -- Rust stops in front of a byte order mark, which is neither white space nor a comment
    push Not at hwhite
    have hne : u.dropWhile isWhitespace ≠ [] := by
      rw [Ne, List.dropWhile_eq_nil_iff]
      push Not
      exact hwhite
    obtain ⟨c, u', hu'⟩ := List.exists_cons_of_ne_nil hne
    have hblack : isWhitespace c = false := by
      have hhead := List.head_dropWhile_not isWhitespace hne
      simpa [hu'] using hhead
    have hbom : c = '\uFEFF' := by
      refine eq_bom_of_isBlank (hu c ?_) hblack
      exact (List.dropWhile_suffix _).subset (hu' ▸ List.mem_cons_self)
    have hsplit : u ++ (p ++ v) = u.takeWhile isWhitespace ++ c :: (u' ++ (p ++ v)) := by
      nth_rewrite 1 [← List.takeWhile_append_dropWhile (p := isWhitespace) (l := u), hu']
      simp
    refine effective_start (u := []) (fun e he => List.mem_takeWhile_imp he) hblack hsplit ?_
    rw [hsplit, List.drop_left, List.cons_append, commentStart_iff, hbom]
    rintro (⟨h, -⟩ | ⟨h, -⟩) <;> cases h

/-! ### Equal lists -/

/-- If `g` keeps whatever `f` keeps, equal results come from equal entries. -/
theorem eq_of_filterMap_eq {α β : Type*} {f g : α → Option β} {l : List α}
    (hfg : ∀ a ∈ l, g a = none → f a = none) (h : l.filterMap f = l.filterMap g) :
    ∀ a ∈ l, f a = g a := by
  have hle : ∀ m : List α, (∀ a ∈ m, g a = none → f a = none) →
      (m.filterMap f).length ≤ (m.filterMap g).length := by
    intro m hm
    induction m with
    | nil => exact le_rfl
    | cons a m ih =>
      have ih := ih fun a ha => hm a (List.mem_cons_of_mem _ ha)
      have hhead := hm a List.mem_cons_self
      cases hg : g a with
      | none => rwa [List.filterMap_cons_none hg, List.filterMap_cons_none (hhead hg)]
      | some y =>
        rw [List.filterMap_cons_some hg, List.length_cons]
        cases hf : f a with
        | none =>
          rw [List.filterMap_cons_none hf]
          omega
        | some x =>
          rw [List.filterMap_cons_some hf, List.length_cons]
          omega
  induction l with
  | nil => simp
  | cons a l ih =>
    have hrest : ∀ a ∈ l, g a = none → f a = none := fun a ha => hfg a (List.mem_cons_of_mem _ ha)
    have hhead := hfg a List.mem_cons_self
    have hlen := hle l hrest
    rw [List.forall_mem_cons]
    cases hg : g a with
    | none =>
      rw [List.filterMap_cons_none hg, List.filterMap_cons_none (hhead hg)] at h
      exact ⟨hhead hg, ih hrest h⟩
    | some y =>
      cases hf : f a with
      | none =>
        rw [List.filterMap_cons_none hf, List.filterMap_cons_some hg] at h
        rw [h, List.length_cons] at hlen
        omega
      | some x =>
        rw [List.filterMap_cons_some hf, List.filterMap_cons_some hg] at h
        injection h with hxy h
        exact ⟨congrArg some hxy, ih hrest h⟩

/-- Without backslash escapes, the same statements are shown as are returned exactly when every
segment is treated alike. -/
theorem filterMap_push_eq_iff (script : List Char) :
    ((SqlScript.scanner false).texts ';' script).filterMap push =
        ((SqlScript.scanner false).texts ';' script).filterMap pushStatement ↔
      ∀ seg ∈ (SqlScript.scanner false).texts ';' script, SegmentAlike seg := by
  constructor
  · intro h seg hseg
    rw [← push_eq_pushStatement_iff]
    refine eq_of_filterMap_eq (fun seg hseg hdrop => ?_) h seg hseg
    by_contra hpush
    obtain ⟨p, hp⟩ := Option.ne_none_iff_exists'.1 hpush
    have hmem : p ∈ ((SqlScript.scanner false).texts ';' script).filterMap pushStatement := by
      rw [← h]
      exact List.mem_filterMap.2 ⟨seg, hseg, hp⟩
    obtain ⟨seg', -, hp'⟩ := List.mem_filterMap.1 hmem
    obtain ⟨htext, -, heffective⟩ := pushStatement_eq_some hp'
    have htrim : p.toList = jsTrim seg := by
      rw [push_eq] at hp
      simp only [Option.ite_none_right_eq_some, Option.some.injEq] at hp
      rw [← hp.2, String.toList_ofList]
    rw [← htext, htrim] at heffective
    refine pushStatement_ne_none (not_kept_alone ?_ heffective) hdrop
    rw [← htrim, htext, trim_trim]
  · intro h
    exact List.filterMap_congr fun seg hseg => (push_eq_pushStatement_iff seg).2 (h seg hseg)

/-! ### Backslash escapes -/

theorem mem_positions_of_white {bs : Bool} {w x tail : List Char} {c : Char}
    (hw : ∀ c ∈ w, isWhitespace c = true)
    (h : c :: tail ∈ (SqlScript.scanner bs).positions (w ++ x)) :
    isWhitespace c = true ∨ c :: tail ∈ (SqlScript.scanner bs).positions x := by
  induction w with
  | nil => exact .inr h
  | cons a w ih =>
    rw [List.cons_append, positions_white (hw a List.mem_cons_self)] at h
    rcases List.mem_cons.1 h with heq | h
    · injection heq with hc
      exact .inl (hc ▸ hw a List.mem_cons_self)
    · exact ih (fun c hc => hw c (List.mem_cons_of_mem _ hc)) h

/-- A segment that is dropped has only comments and white space for tokens. -/
theorem token_of_dropped {bs : Bool} {l r tail : List Char} {tokens : List (List Char)} {c : Char}
    (hrun : Run (SqlScript.scanner bs) tokens l r)
    (hdrop : pushStatement ((SqlScript.scanner bs).text tokens) = none)
    (hmem : c :: tail ∈ tokens) : CommentStart (c :: tail) ∨ isWhitespace c = true := by
  have htext := hrun.text_append
  have hlt := hrun.length_lt hmem
  generalize (SqlScript.scanner bs).text tokens = seg at htext hdrop
  have hp : ¬ Effective (SqlScript.trim seg) := fun h => pushStatement_ne_none h hdrop
  obtain ⟨w, w', hseg, hw, hw'⟩ := trim_spec seg
  have hl : l = w ++ (SqlScript.trim seg ++ (w' ++ r)) := by
    rw [← htext]
    nth_rewrite 1 [hseg]
    simp only [List.append_assoc]
  have hposition : c :: tail ∈ (SqlScript.scanner bs).positions l := by
    rw [hrun.positions_eq]
    exact List.mem_append_left _ hmem
  rw [hl] at hposition
  rcases mem_positions_of_white hw hposition with hwhite | hposition
  · exact .inr hwhite
  by_cases hbefore : (w' ++ r).length < (c :: tail).length
  · exact token_of_not_effective hp hposition hbefore
  · -- the token starts in the white space behind the statement
    have hsuffix : c :: tail <:+ w' ++ r :=
      List.suffix_of_suffix_length_le (suffix_of_mem_positions hposition)
        (List.suffix_append _ _) (by omega)
    obtain ⟨u, hu⟩ := hsuffix
    rcases List.append_eq_append_iff.1 hu with ⟨b, rfl, htail⟩ | ⟨b, rfl, hr⟩
    · cases b with
      | nil =>
        rw [List.nil_append] at htail
        rw [htail] at hlt
        exact absurd hlt (lt_irrefl _)
      | cons e b =>
        injection htail with hc
        exact .inr (hw' c (by simp [hc]))
    · rw [hr, List.length_append] at hlt
      omega

theorem trim_split (raw : List Char) : raw = raw.takeWhile isWhitespace ++
    (SqlScript.trim raw ++ (raw.dropWhile isWhitespace).rtakeWhile isWhitespace) := by
  rw [trim_eq_rdropWhile, List.rdropWhile_append_rtakeWhile, List.takeWhile_append_dropWhile]

theorem takeWhile_append_of_trim {a : List Char} (hne : SqlScript.trim a ≠ []) (r : List Char) :
    (a ++ r).takeWhile isWhitespace = a.takeWhile isWhitespace := by
  obtain ⟨c, hc, hblack⟩ := trim_ne_nil.1 hne
  refine takeWhile_append_of_lt ?_ r
  refine lt_of_le_of_ne (List.takeWhile_prefix _).length_le fun hlength => ?_
  rw [← (List.takeWhile_prefix _).eq_of_length hlength] at hc
  rw [List.mem_takeWhile_imp hc] at hblack
  cases hblack

/-- The texts in front of one place are the same when they have the same text to execute and are
followed by no white space. -/
theorem eq_of_trim_eq {a b r r' : List Char} (hl : a ++ r = b ++ r')
    (htrim : SqlScript.trim a = SqlScript.trim b) (hne : SqlScript.trim a ≠ [])
    (hr : r.takeWhile isWhitespace = []) (hr' : r'.takeWhile isWhitespace = []) : a = b := by
  have hfront : a.takeWhile isWhitespace = b.takeWhile isWhitespace := by
    rw [← takeWhile_append_of_trim hne r, hl, takeWhile_append_of_trim (htrim ▸ hne)]
  have ha := trim_split a
  have hb := trim_split b
  rw [← hfront, ← htrim] at hb
  have hback : (a.dropWhile isWhitespace).rtakeWhile isWhitespace ++ r =
      (b.dropWhile isWhitespace).rtakeWhile isWhitespace ++ r' := by
    rw [ha, hb] at hl
    simpa only [List.append_assoc, List.append_cancel_left_eq] using hl
  have hwhite : ∀ (e x : List Char), x.takeWhile isWhitespace = [] →
      (e.rtakeWhile isWhitespace ++ x).takeWhile isWhitespace = e.rtakeWhile isWhitespace := by
    intro e x hx
    rw [List.takeWhile_append_of_pos fun c hc => List.mem_rtakeWhile_imp hc, hx, List.append_nil]
  have htail := congrArg (List.takeWhile isWhitespace) hback
  rw [hwhite _ _ hr, hwhite _ _ hr'] at htail
  rw [ha, hb, htail]

/-- The first segments of both scans are the same when they are dropped, or return the same. -/
theorem first_eq {l r r' : List Char} {tokens tokens' : List (List Char)}
    (hrun : Run (SqlScript.scanner true) tokens l r)
    (hrun' : Run (SqlScript.scanner false) tokens' l r')
    (htokens : ∀ s ∈ tokens, s.head? ≠ some ';') (htokens' : ∀ s ∈ tokens', s.head? ≠ some ';')
    (hr : r = [] ∨ r.head? = some ';') (hr' : r' = [] ∨ r'.head? = some ';')
    (hpush : ∀ p q, pushStatement ((SqlScript.scanner true).text tokens) = some p →
      pushStatement ((SqlScript.scanner false).text tokens') = some q → p = q) :
    (SqlScript.scanner true).text tokens = (SqlScript.scanner false).text tokens' ∧ r = r' := by
  have htext := hrun.text_append
  have htext' := hrun'.text_append
  have halike : ∀ {bs : Bool} {tokens : List (List Char)} {r : List Char},
      Run (SqlScript.scanner bs) tokens l r →
        pushStatement ((SqlScript.scanner bs).text tokens) = none →
          ∀ bs', Run (SqlScript.scanner bs') tokens l r := by
    intro bs tokens r hrun hdrop bs'
    refine hrun.congr fun s hs => ?_
    cases s with
    | nil => exact absurd (hrun.length_lt hs) (Nat.not_lt_zero _)
    | cons c tail =>
      rcases token_of_dropped hrun hdrop hs with hstart | hwhite
      · rw [len_comment bs hstart, len_comment bs' hstart]
      · rw [len_of_isWhitespace hwhite, len_of_isWhitespace hwhite]
  by_cases hdrop : pushStatement ((SqlScript.scanner true).text tokens) = none
  · obtain ⟨rfl, rfl⟩ := (halike hrun hdrop false).unique hrun' htokens htokens' hr hr'
    exact ⟨List.append_cancel_right (htext.trans htext'.symm), rfl⟩
  by_cases hdrop' : pushStatement ((SqlScript.scanner false).text tokens') = none
  · obtain ⟨rfl, rfl⟩ := (halike hrun' hdrop' true).unique hrun htokens' htokens hr' hr
    exact ⟨List.append_cancel_right (htext.trans htext'.symm), rfl⟩
  obtain ⟨p, hp⟩ := Option.ne_none_iff_exists'.1 hdrop
  obtain ⟨q, hq⟩ := Option.ne_none_iff_exists'.1 hdrop'
  have hpq := hpush p q hp hq
  obtain ⟨hp, hne, -⟩ := pushStatement_eq_some hp
  obtain ⟨hq, -, -⟩ := pushStatement_eq_some hq
  have hblack : ∀ {r : List Char}, r = [] ∨ r.head? = some ';' →
      r.takeWhile isWhitespace = [] := by
    rintro r (rfl | hhead)
    · rfl
    · obtain ⟨t, rfl⟩ := List.head?_eq_some_iff.1 hhead
      rfl
  have heq := eq_of_trim_eq (htext.trans htext'.symm) (by rw [← hp, ← hq, hpq]) hne (hblack hr)
    (hblack hr')
  refine ⟨heq, ?_⟩
  rw [heq] at htext
  exact List.append_cancel_left (htext.trans htext'.symm)

/-- The statements the backend returns with and without backslash escapes are the same only when
the escapes move no cut. The induction is on the segments. -/
theorem texts_eq_of_filterMap_eq (l : List Char)
    (h : ((SqlScript.scanner true).texts ';' l).filterMap pushStatement =
      ((SqlScript.scanner false).texts ';' l).filterMap pushStatement) :
    (SqlScript.scanner true).texts ';' l = (SqlScript.scanner false).texts ';' l := by
  induction hn : l.length using Nat.strong_induction_on generalizing l with
  | _ n ih =>
    obtain ⟨tokens, r, hrun, htokens, hend⟩ := segments_first (len_scanner_semicolon true) l
    obtain ⟨tokens', r', hrun', htokens', hend'⟩ := segments_first (len_scanner_semicolon false) l
    have hcut : ∀ {bs : Bool} {tokens : List (List Char)} {r : List Char},
        ((r = [] ∧ (SqlScript.scanner bs).segments ';' l = [tokens]) ∨ ∃ r', r = ';' :: r' ∧
          (SqlScript.scanner bs).segments ';' l =
            tokens :: (SqlScript.scanner bs).segments ';' r') →
        (r = [] ∨ r.head? = some ';') ∧ ∃ rest, (SqlScript.scanner bs).texts ';' l =
          (SqlScript.scanner bs).text tokens :: rest := by
      rintro bs tokens r (⟨rfl, hsegs⟩ | ⟨r', rfl, hsegs⟩)
      · exact ⟨.inl rfl, [], by rw [texts, hsegs]; rfl⟩
      · exact ⟨.inr rfl, _, by rw [texts, hsegs]; rfl⟩
    obtain ⟨hr, rest, htexts⟩ := hcut hend
    obtain ⟨hr', rest', htexts'⟩ := hcut hend'
    obtain ⟨hfirst, rfl⟩ := first_eq hrun hrun' htokens htokens' hr hr' fun p q hp hq => by
      rw [htexts, htexts', List.filterMap_cons_some hp, List.filterMap_cons_some hq] at h
      injection h
    rcases hend with ⟨rfl, hsegs⟩ | ⟨s, rfl, hsegs⟩
    · rcases hend' with ⟨-, hsegs'⟩ | ⟨s', hs', -⟩
      · rw [texts, texts, hsegs, hsegs', List.map_singleton, List.map_singleton, hfirst]
      · cases hs'
    · rcases hend' with ⟨hs', -⟩ | ⟨s', hs', hsegs'⟩
      · cases hs'
      · injection hs' with _ hs'
        subst hs'
        have hlength := congrArg List.length hrun.text_append
        rw [List.length_append, List.length_cons] at hlength
        have hlist : (SqlScript.scanner true).texts ';' l =
            (SqlScript.scanner false).text tokens' :: (SqlScript.scanner true).texts ';' s := by
          rw [texts, hsegs, List.map_cons, hfirst]
          rfl
        have hlist' : (SqlScript.scanner false).texts ';' l =
            (SqlScript.scanner false).text tokens' :: (SqlScript.scanner false).texts ';' s := by
          rw [texts, hsegs', List.map_cons]
          rfl
        rw [hlist, hlist'] at h
        rw [hlist, hlist']
        refine congrArg _ (ih s.length (by omega) s ?_ rfl)
        cases hpush : pushStatement ((SqlScript.scanner false).text tokens') with
        | none => rwa [List.filterMap_cons_none hpush, List.filterMap_cons_none hpush] at h
        | some p =>
          rw [List.filterMap_cons_some hpush, List.filterMap_cons_some hpush] at h
          injection h

/-! ### Main results -/

theorem splitStatements_eq (script : String) : splitStatements script =
    ((SqlScript.scanner false).texts ';' script.toList).filterMap push := by
  rw [splitStatements, scanner_eq]

/-- For an engine without backslash escapes the segments decide. -/
theorem splitStatements_eq_iff {engine : Engine} (hengine : engine ≠ .mysql) (script : String) :
    splitStatements script = SqlScript.splitStatements script engine ↔
      ∀ seg ∈ (SqlScript.scanner false).texts ';' script.toList, SegmentAlike seg := by
  rw [splitStatements_eq, SqlScript.splitStatements, splitStatementsImpl, decide_eq_false hengine]
  exact filterMap_push_eq_iff script.toList

end SqlStatements
end Frontend
end AgentDb
