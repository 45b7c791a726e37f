import Mathlib.Data.List.TakeWhile
import TxLoad.Settings.VariableFile

/-! # Every placeholder of a text, once

A `Cut` is a text in pieces with the name of a placeholder after each but the last. It is exact for
a text if the text has these placeholders and no others, wherever else one might begin: in a piece,
within another placeholder, or over the end of one. Each text has one exact cut. The one pass over
the text finds it, and the substitution puts values in the places of its names, whatever the values
are.
-/

namespace TxLoad.Settings

/-! ## Names -/

def StartsName (c : Char) : Prop := 'A' ≤ c ∧ c ≤ 'Z' ∨ c = '_'

def ContinuesName (c : Char) : Prop := StartsName c ∨ '0' ≤ c ∧ c ≤ '9'

inductive IsName : List Char → Prop
  | intro {first : Char} {rest : List Char} (hFirst : StartsName first)
      (hRest : ∀ c ∈ rest, ContinuesName c) : IsName (first :: rest)

theorem isNameStart_iff (c : Char) : isNameStart c = true ↔ StartsName c := by
  unfold isNameStart StartsName Char.isUpper
  simp only [Bool.or_eq_true, decide_eq_true_eq]
  rfl

theorem isNameChar_iff (c : Char) : isNameChar c = true ↔ ContinuesName c := by
  unfold isNameChar ContinuesName Char.isDigit
  rw [Bool.or_eq_true, isNameStart_iff]
  simp only [Bool.and_eq_true, decide_eq_true_eq]
  rfl

theorem IsName.isNameChar {name : List Char} (h : IsName name) :
    ∀ c ∈ name, isNameChar c = true := by
  obtain ⟨hFirst, hRest⟩ := h
  refine List.forall_mem_cons.mpr ⟨?_, fun c hMem => (isNameChar_iff c).mpr (hRest c hMem)⟩
  exact (isNameChar_iff _).mpr (.inl hFirst)

/-! ## Placeholders -/

/-- A placeholder as it is written. -/
def written (name : List Char) : List Char := (Segment.placeholder name).written

variable {name other text before after rest : List Char}

theorem written_ne_nil (name : List Char) : written name ≠ [] := List.cons_ne_nil _ _

theorem takeWhile_isNameChar (h : ∀ c ∈ name, isNameChar c = true) (after : List Char) :
    (name ++ '\x7d' :: after).takeWhile isNameChar = name := by
  rw [List.takeWhile_append_of_pos h, List.takeWhile_cons_of_neg (by decide), List.append_nil]

theorem dropWhile_isNameChar (h : ∀ c ∈ name, isNameChar c = true) (after : List Char) :
    (name ++ '\x7d' :: after).dropWhile isNameChar = '\x7d' :: after := by
  rw [List.dropWhile_append_of_pos h, List.dropWhile_cons_of_neg (by decide)]

theorem placeholder?_written (h : IsName name) (after : List Char) :
    placeholder? (written name ++ after) = some (name, after) := by
  obtain ⟨hFirst, hRest⟩ := h
  rename_i first rest
  have hChars : ∀ c ∈ rest, isNameChar c = true :=
    fun c hMem => (isNameChar_iff c).mpr (hRest c hMem)
  have hText : written (first :: rest) ++ after =
      '$' :: '\x7b' :: first :: (rest ++ '\x7d' :: after) := by
    simp only [written, Segment.written, List.cons_append, List.append_assoc, List.nil_append]
  rw [hText]
  simp only [placeholder?, (isNameStart_iff first).mpr hFirst, if_true,
    dropWhile_isNameChar hChars, takeWhile_isNameChar hChars]

theorem written_of_placeholder? (h : placeholder? text = some (name, after)) :
    IsName name ∧ text = written name ++ after := by
  unfold placeholder? at h
  split at h
  · rename_i first rest
    split at h
    · rename_i hFirst
      split at h
      · rename_i tail hTail
        cases h
        refine ⟨.intro ((isNameStart_iff first).mp hFirst) fun c hMem =>
          (isNameChar_iff c).mp (List.mem_takeWhile_imp hMem), ?_⟩
        have hRest := List.takeWhile_append_dropWhile (p := isNameChar) (l := rest)
        rw [hTail] at hRest
        rw [← hRest]
        simp only [written, Segment.written, List.cons_append, List.append_assoc,
          List.nil_append, hRest]
      · cases h
    · cases h
  · cases h

/-- A placeholder has no dollar sign but the first. -/
theorem dollar_notMem_tail_written (h : IsName name) : '$' ∉ (written name).tail := by
  have hName : '$' ∉ name := fun hMem => absurd (h.isNameChar _ hMem) (by decide)
  simp only [written, Segment.written, List.cons_append, List.tail_cons, List.mem_cons,
    List.mem_append, List.not_mem_nil, or_false, not_or]
  exact ⟨by decide, hName, by decide⟩

/-- Of two placeholders in a text neither begins within the other. -/
theorem eq_nil_or_of_written (h : IsName name)
    (hText : written name ++ rest = before ++ (written other ++ after)) :
    before = [] ∨ ∃ between, before = written name ++ between ∧
      rest = between ++ (written other ++ after) := by
  rcases List.append_eq_append_iff.mp hText with ⟨between, hBefore, hRest⟩ | ⟨inner, hName, hOther⟩
  · exact .inr ⟨between, hBefore, hRest⟩
  · cases before with
    | nil => exact .inl rfl
    | cons first before =>
      cases inner with
      | nil => exact .inr ⟨[], by rw [hName, List.append_nil, List.append_nil], hOther.symm⟩
      | cons c inner =>
        -- The other placeholder would begin in the tail of the first one.
        obtain rfl : '$' = c := (List.cons.inj hOther).1
        refine absurd ?_ (dollar_notMem_tail_written h)
        rw [hName, List.cons_append, List.tail_cons]
        exact List.mem_append_right before List.mem_cons_self

/-- At one place of a text there is one placeholder at most. -/
theorem written_append_inj (h : IsName name) (hOther : IsName other)
    (hText : written name ++ rest = written other ++ after) : name = other ∧ rest = after := by
  have hName := placeholder?_written h rest
  rw [hText, placeholder?_written hOther] at hName
  cases hName
  exact ⟨rfl, rfl⟩

/-! ## Cuts -/

/-- Pieces of a text, each with a name that follows it, and the piece after the last name. -/
structure Cut where
  parts : List (List Char × List Char)
  last : List Char

namespace Cut

/-- The text with something in the place of each name. -/
def filled (fill : List Char → List Char) (c : Cut) : List Char :=
  (c.parts.flatMap fun (piece, name) => piece ++ fill name) ++ c.last

/-- The placeholders of a text are those of the cut, each at its place. -/
structure Exact (c : Cut) (text : List Char) : Prop where
  text_eq : text = c.filled written
  names : ∀ part ∈ c.parts, IsName part.2
  all : ∀ before name after, IsName name → text = before ++ (written name ++ after) →
    ∃ earlier piece later, c.parts = earlier ++ (piece, name) :: later ∧
      before = filled written ⟨earlier, piece⟩ ∧ after = filled written ⟨later, c.last⟩

/-- The cut of a text that has a character before it. -/
def keep (x : Char) : Cut → Cut
  | ⟨[], last⟩ => ⟨[], x :: last⟩
  | ⟨(piece, name) :: parts, last⟩ => ⟨(x :: piece, name) :: parts, last⟩

/-- The cut of a text that has a placeholder before it. -/
def place (name : List Char) (c : Cut) : Cut := ⟨([], name) :: c.parts, c.last⟩

variable {fill : List Char → List Char} {c d : Cut} {piece last : List Char}
  {parts : List (List Char × List Char)} {x : Char}

@[simp] theorem filled_nil (last : List Char) : filled fill ⟨[], last⟩ = last := rfl

@[simp] theorem filled_cons (piece name : List Char) (parts : List (List Char × List Char))
    (last : List Char) :
    filled fill ⟨(piece, name) :: parts, last⟩ =
      piece ++ (fill name ++ filled fill ⟨parts, last⟩) := by
  simp only [filled, List.flatMap_cons, List.append_assoc]

@[simp] theorem filled_keep (x : Char) (c : Cut) : (c.keep x).filled fill = x :: c.filled fill := by
  obtain ⟨parts, last⟩ := c
  cases parts with
  | nil => rfl
  | cons part parts => rw [keep, filled_cons, filled_cons, List.cons_append]

@[simp] theorem filled_place (name : List Char) (c : Cut) :
    (c.place name).filled fill = fill name ++ c.filled fill := by
  rw [place, filled_cons, List.nil_append]

/-! ## The exact cut of a text -/

theorem exact_nil : Exact ⟨[], []⟩ [] where
  text_eq := rfl
  names := List.forall_mem_nil _
  all before name after _ hText := by
    have hNone := (List.append_eq_nil_iff.mp (List.append_eq_nil_iff.mp hText.symm).2).1
    exact absurd hNone (written_ne_nil name)

/-- A part of a cut is one of the cut with a character before it. -/
theorem exists_part_keep {c : Cut} {earlier later : List (List Char × List Char)}
    (h : c.parts = earlier ++ (piece, name) :: later) :
    ∃ earlier' piece', (c.keep x).parts = earlier' ++ (piece', name) :: later ∧
      filled written ⟨earlier', piece'⟩ = x :: filled written ⟨earlier, piece⟩ ∧
      (c.keep x).last = c.last := by
  obtain ⟨parts, last⟩ := c
  obtain rfl : parts = _ := h
  cases earlier with
  | nil => exact ⟨[], x :: piece, rfl, rfl, rfl⟩
  | cons part earlier =>
    refine ⟨(x :: part.1, part.2) :: earlier, piece, rfl, ?_, rfl⟩
    rw [filled_cons, filled_cons, List.cons_append]

/-- A character stays if no placeholder begins with it. -/
theorem Exact.keep (h : c.Exact rest) (hNone : placeholder? (x :: rest) = none) :
    (c.keep x).Exact (x :: rest) where
  text_eq := by rw [filled_keep, ← h.text_eq]
  names := by
    obtain ⟨parts, last⟩ := c
    cases parts with
    | nil => exact List.forall_mem_nil _
    | cons part parts => exact List.forall_mem_cons.mpr (List.forall_mem_cons.mp h.names)
  all before name after hName hText := by
    cases before with
    | nil =>
      rw [hText, List.nil_append, placeholder?_written hName] at hNone
      cases hNone
    | cons y before =>
      obtain ⟨rfl, hRest⟩ := List.cons.inj hText
      obtain ⟨earlier, piece, later, hParts, rfl, rfl⟩ := h.all before name after hName hRest
      obtain ⟨earlier', piece', hParts', hBefore, hLast⟩ := exists_part_keep (x := x) hParts
      exact ⟨earlier', piece', later, hParts', hBefore.symm, by rw [hLast]⟩

/-- A placeholder is a part, and what follows it is read for itself. -/
theorem Exact.place (h : c.Exact rest) (hName : IsName name) :
    (c.place name).Exact (written name ++ rest) where
  text_eq := by rw [filled_place, ← h.text_eq]
  names := List.forall_mem_cons.mpr ⟨hName, h.names⟩
  all before other after hOther hText := by
    rcases eq_nil_or_of_written hName hText with rfl | ⟨between, rfl, hRest⟩
    · obtain ⟨rfl, rfl⟩ := written_append_inj hName hOther hText
      exact ⟨[], [], c.parts, rfl, rfl, h.text_eq⟩
    · obtain ⟨earlier, piece, later, hParts, rfl, rfl⟩ := h.all between other after hOther hRest
      refine ⟨([], name) :: earlier, piece, later, ?_, ?_, rfl⟩
      · rw [Cut.place, hParts, List.cons_append]
      · rw [filled_cons, List.nil_append]

/-- What follows the first placeholder has the other parts. -/
theorem Exact.tail (h : Exact ⟨(piece, name) :: parts, last⟩ text) :
    Exact ⟨parts, last⟩ (filled written ⟨parts, last⟩) where
  text_eq := rfl
  names := (List.forall_mem_cons.mp h.names).2
  all before other after hOther hText := by
    have hAll := h.all (piece ++ (written name ++ before)) other after hOther (by
      rw [h.text_eq, filled_cons, hText]
      simp only [List.append_assoc])
    obtain ⟨earlier, found, later, hParts, hBefore, hAfter⟩ := hAll
    cases earlier with
    | nil =>
      -- The occurrence would begin at the end of the first piece, and it begins further on.
      cases hParts
      have hNone := List.append_right_eq_self.mp hBefore
      exact absurd (List.append_eq_nil_iff.mp hNone).1 (written_ne_nil name)
    | cons part earlier =>
      obtain ⟨rfl, rfl⟩ := List.cons.inj hParts
      rw [filled_cons] at hBefore
      refine ⟨earlier, found, later, rfl, ?_, hAfter⟩
      exact List.append_cancel_left (List.append_cancel_left hBefore)

/-- The part that a cut begins with comes before every name. -/
theorem prefix_filled {earlier later : List (List Char × List Char)} {found : List Char}
    (h : (piece, name) :: parts = earlier ++ (found, other) :: later) :
    piece <+: filled written ⟨earlier, found⟩ := by
  cases earlier with
  | nil =>
    cases h
    exact List.prefix_rfl
  | cons part earlier =>
    cases h
    rw [filled_cons]
    exact List.prefix_append _ _

theorem Exact.text_eq_cons (h : Exact ⟨(piece, name) :: parts, last⟩ text) :
    text = piece ++ (written name ++ filled written ⟨parts, last⟩) := by
  rw [h.text_eq, filled_cons]

/-- A text has one exact cut at most. -/
theorem Exact.unique (h : c.Exact text) (g : d.Exact text) : d = c := by
  obtain ⟨parts, last⟩ := c
  obtain ⟨others, final⟩ := d
  induction parts generalizing others text with
  | nil =>
    cases others with
    | nil =>
      have hText : final = last := g.text_eq.symm.trans h.text_eq
      rw [hText]
    | cons part others =>
      have hAll := h.all part.1 part.2 _ (List.forall_mem_cons.mp g.names).1 g.text_eq_cons
      obtain ⟨earlier, _, _, hParts, _⟩ := hAll
      cases earlier <;> cases hParts
  | cons part parts ih =>
    obtain ⟨piece, name⟩ := part
    have hName : IsName name := (List.forall_mem_cons.mp h.names).1
    obtain ⟨earlier, found, later, hOthers, hPiece, hLater⟩ :=
      g.all piece name _ hName h.text_eq_cons
    obtain rfl : others = _ := hOthers
    cases earlier with
    | nil =>
      obtain rfl : piece = found := hPiece
      have hTail := h.tail
      rw [hLater] at hTail
      cases ih hTail later g.tail
      rfl
    | cons first earlier =>
      -- The other cut would have a placeholder within the first piece, and this one has none there.
      obtain ⟨early, inner⟩ := first
      have hInner : IsName inner := g.names _ List.mem_cons_self
      obtain ⟨before, _, after, hParts, hEarly, _⟩ := h.all early inner _ hInner g.text_eq_cons
      have hLength := (prefix_filled hParts).length_le
      rw [← hEarly, hPiece, filled_cons, List.length_append, List.length_append] at hLength
      have hSome := List.length_pos_iff.mpr (written_ne_nil inner)
      omega

/-! ## The pass over a text -/

/-- The cut that a list of segments makes. -/
def ofSegments : List Segment → Cut
  | [] => ⟨[], []⟩
  | .literal c :: rest => (ofSegments rest).keep c
  | .placeholder name :: rest => (ofSegments rest).place name

theorem exact_ofSegments (text : List Char) : (ofSegments (segments text)).Exact text := by
  fun_induction segments text with
  | case1 text name after hFound ih =>
    obtain ⟨hName, rfl⟩ := written_of_placeholder? hFound
    exact ih.place hName
  | case2 => exact exact_nil
  | case3 c rest hNone ih => exact ih.keep hNone

theorem filled_ofSegments (env : Environment) (list : List Segment) :
    (ofSegments list).filled (fun name => (Segment.placeholder name).value env) =
      list.flatMap (Segment.value env) := by
  induction list with
  | nil => rfl
  | cons segment rest ih =>
    cases segment with
    | literal c =>
      rw [ofSegments, filled_keep, ih]
      rfl
    | placeholder name =>
      rw [ofSegments, filled_place, ih]
      rfl

end Cut

/-! ## Variables in any order -/

theorem Variables.lookup_of_perm {known rearranged : Variables} (h : known.Perm rearranged)
    (hNames : (known.map Prod.fst).Nodup) (name : String) :
    known.lookup name = rearranged.lookup name := by
  induction h with
  | nil => rfl
  | cons _ _ ih => rw [List.lookup_cons, List.lookup_cons, ih (List.nodup_cons.mp hNames).2]
  | swap first second rest =>
    obtain ⟨firstName, firstValue⟩ := first
    obtain ⟨secondName, secondValue⟩ := second
    have hNe : secondName ≠ firstName :=
      fun hEq => (List.nodup_cons.mp hNames).1 (hEq ▸ List.mem_cons_self)
    simp only [List.lookup_cons]
    by_cases hFirst : name = firstName
    · rw [hFirst, beq_self_eq_true, beq_eq_false_iff_ne.mpr hNe.symm]
    · rw [beq_eq_false_iff_ne.mpr hFirst]
  | trans hFirst _ ihFirst ihSecond =>
    exact (ihFirst hNames).trans (ihSecond ((hFirst.map Prod.fst).nodup_iff.mp hNames))

/-- A text has exactly one cut at its placeholders. In any environment the substitution gives the
pieces of the cut, unchanged, and the values of the names between them. -/
theorem substitute_fills_exact_cut (text : String) :
    ∃ c : Cut, c.Exact text.toList ∧ (∀ d : Cut, d.Exact text.toList → d = c) ∧
      (∀ env : Environment, (substitute env text).toList =
        c.filled fun name => ((env (String.ofList name)).getD "").toList) ∧
      ∀ known rearranged : Variables, known.Perm rearranged → (known.map Prod.fst).Nodup →
        substitute known.environment text = substitute rearranged.environment text := by
  have hExact := Cut.exact_ofSegments text.toList
  refine ⟨_, hExact, fun d hOther => hExact.unique hOther, fun env => ?_,
    fun known rearranged hPerm hNames => ?_⟩
  · rw [substitute, String.toList_ofList]
    exact (Cut.filled_ofSegments env _).symm
  · have hSame : known.environment = rearranged.environment :=
      funext (Variables.lookup_of_perm hPerm hNames)
    rw [hSame]

end TxLoad.Settings
