import ScriptLexer.Text.Measure

/-!
Ways to cut a text: where a number of bytes have passed, at the first occurrence
of a mark, where a run of characters ends, and at every separator. No cut loses a
character: the parts, with the mark or the separators between them, make up the
text again.
-/

namespace ScriptLexer.Text

/-- Splits a text where `size` bytes have passed. A character is never cut: a
boundary inside one moves to its end. -/
def splitAtByte : Nat → List Char → List Char × List Char
  | _, [] => ([], [])
  | 0, text => ([], text)
  | size, c :: text =>
    let (before, after) := splitAtByte (size - c.utf8Size) text
    (c :: before, after)

theorem splitAtByte_append (size : Nat) (text : List Char) :
    (splitAtByte size text).1 ++ (splitAtByte size text).2 = text := by
  fun_induction splitAtByte size text <;> simp_all

theorem splitAtByte_byteLength (before after : List Char) :
    splitAtByte (byteLength before) (before ++ after) = (before, after) := by
  induction before with
  | nil => cases after <;> rfl
  | cons c before ih =>
    obtain ⟨size, hsize⟩ : ∃ size, byteLength (c :: before) = size + 1 := by
      refine Nat.exists_eq_succ_of_ne_zero ?_
      rw [byteLength_cons]
      have := c.utf8Size_pos
      omega
    have hrest : size + 1 - c.utf8Size = byteLength before := by
      rw [← hsize, byteLength_cons]
      omega
    rw [hsize, List.cons_append, splitAtByte, hrest, ih]
    exact Nat.succ_ne_zero size

/-- The first place at which `mark` occurs in a text, as the text before it and
the text after it. An empty mark occurs at once. -/
def splitAtMark? (mark : List Char) : List Char → Option (List Char × List Char)
  | [] => if mark.isEmpty then some ([], []) else none
  | c :: text =>
    if mark.isPrefixOf (c :: text) then some ([], (c :: text).drop mark.length)
    else (splitAtMark? mark text).map fun (before, after) => (c :: before, after)

theorem eq_append_of_splitAtMark? {mark text before after : List Char}
    (h : splitAtMark? mark text = some (before, after)) :
    text = before ++ mark ++ after := by
  induction text generalizing before after with
  | nil =>
    cases mark <;> simp_all [splitAtMark?]
  | cons c text ih =>
    unfold splitAtMark? at h
    split at h
    · next hmark =>
      obtain ⟨rfl, rfl⟩ : before = [] ∧ (c :: text).drop mark.length = after := by
        simpa [eq_comm] using h
      obtain ⟨tail, htail⟩ := List.isPrefixOf_iff_prefix.1 hmark
      simp [← htail]
    · obtain ⟨⟨b, a⟩, hrest, hpair⟩ := Option.map_eq_some_iff.1 h
      obtain ⟨rfl, rfl⟩ : c :: b = before ∧ a = after := by simpa using hpair
      simp [ih hrest]

/-- Nowhere in the text does the mark occur before the place that was found. -/
theorem length_le_of_splitAtMark? {mark text before after before' after' : List Char}
    (h : splitAtMark? mark text = some (before, after))
    (h' : text = before' ++ mark ++ after') : before.length ≤ before'.length := by
  induction text generalizing before after before' with
  | nil =>
    have hnil : before = [] := by
      cases mark <;> simp [splitAtMark?, eq_comm] at h
      exact h.1
    simp [hnil]
  | cons c text ih =>
    unfold splitAtMark? at h
    split at h
    · obtain ⟨rfl, _⟩ : before = [] ∧ (c :: text).drop mark.length = after := by
        simpa [eq_comm] using h
      exact Nat.zero_le _
    · next hmark =>
      obtain ⟨⟨b, a⟩, hrest, hpair⟩ := Option.map_eq_some_iff.1 h
      obtain ⟨rfl, rfl⟩ : c :: b = before ∧ a = after := by simpa using hpair
      cases before' with
      | nil => exact absurd (List.isPrefixOf_iff_prefix.2 ⟨after', h'.symm⟩) hmark
      | cons c' before' =>
        obtain ⟨_, htext⟩ := List.cons.inj h'
        exact Nat.succ_le_succ (ih hrest htext)

theorem splitAtMark?_eq_none_iff {mark text : List Char} :
    splitAtMark? mark text = none ↔ ¬ mark <:+: text := by
  induction text with
  | nil => cases mark <;> simp [splitAtMark?]
  | cons c text ih =>
    unfold splitAtMark?
    rw [List.infix_cons_iff, ← List.isPrefixOf_iff_prefix]
    split
    · next hmark => simp [hmark]
    · next hmark => simp [hmark, ih]

/-! ### A run of members, and what follows it -/

theorem takeWhile_append {isMember : Char → Bool} {run rest : List Char}
    (hrun : ∀ x ∈ run, isMember x = true) (hrest : ∀ x ∈ rest.head?, isMember x = false) :
    (run ++ rest).takeWhile isMember = run := by
  rw [List.takeWhile_append_of_pos hrun]
  cases rest with
  | nil => simp
  | cons x rest => simp [hrest x rfl]

theorem dropWhile_append {isMember : Char → Bool} {run rest : List Char}
    (hrun : ∀ x ∈ run, isMember x = true) (hrest : ∀ x ∈ rest.head?, isMember x = false) :
    (run ++ rest).dropWhile isMember = rest := by
  rw [List.dropWhile_append_of_pos hrun]
  cases rest with
  | nil => simp
  | cons x rest => simp [hrest x rfl]

/-! ### Separators -/

def pieces (separator : Char) : List Char → List (List Char)
  | [] => [[]]
  | c :: text =>
    if c = separator then [] :: pieces separator text
    else
      match pieces separator text with
      | [] => [[c]]
      | piece :: others => (c :: piece) :: others

theorem length_pieces (separator : Char) (text : List Char) :
    (pieces separator text).length = text.count separator + 1 := by
  induction text with
  | nil => rfl
  | cons c text ih =>
    unfold pieces
    split
    · next h => simp [ih, h]
    · next h =>
      rw [List.count_cons_of_ne h, ← ih]
      cases hp : pieces separator text with
      | nil => simp [hp] at ih
      | cons piece others => rfl

theorem pieces_ne_nil (separator : Char) (text : List Char) : pieces separator text ≠ [] := by
  rw [← List.length_pos_iff, length_pieces]
  exact Nat.succ_pos _

theorem pieces_append_cons {separator : Char} {piece : List Char} (h : separator ∉ piece)
    (text : List Char) :
    pieces separator (piece ++ separator :: text) = piece :: pieces separator text := by
  induction piece with
  | nil => exact if_pos rfl
  | cons c piece ih =>
    obtain ⟨hc, hpiece⟩ := not_or.1 (mt List.mem_cons.2 h)
    rw [List.cons_append, pieces, if_neg (Ne.symm hc), ih hpiece]

theorem pieces_eq_singleton {separator : Char} {piece : List Char} (h : separator ∉ piece) :
    pieces separator piece = [piece] := by
  induction piece with
  | nil => rfl
  | cons c piece ih =>
    obtain ⟨hc, hpiece⟩ := not_or.1 (mt List.mem_cons.2 h)
    rw [pieces, if_neg (Ne.symm hc), ih hpiece]

/-- What holds of a piece, and of a text with one more piece in front of it, holds of
every text. -/
theorem pieces_induction (separator : Char) {motive : List Char → Prop}
    (last : ∀ piece, separator ∉ piece → motive piece)
    (cons : ∀ piece text, separator ∉ piece → motive text → motive (piece ++ separator :: text))
    (text : List Char) : motive text := by
  induction hn : text.length using Nat.strongRecOn generalizing text with
  | ind n ih =>
    subst hn
    by_cases hmem : separator ∈ text
    · obtain ⟨piece, after, rfl, hpiece⟩ := List.eq_append_cons_of_mem hmem
      exact cons piece after hpiece (ih _ (by simp; omega) after rfl)
    · exact last text hmem

end ScriptLexer.Text
