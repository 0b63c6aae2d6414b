/-!
Two measures of a text: the bytes that it takes in UTF-8, in which offsets and
lengths are counted, and its line feeds, in which lines are counted. Both turn
concatenation into addition, so a position in a script is the measure of the
text before it.
-/

namespace ScriptLexer.Text

/-- The bytes that a text takes in UTF-8. -/
def byteLength : List Char → Nat
  | [] => 0
  | c :: text => c.utf8Size + byteLength text

def lineFeeds (text : List Char) : Nat :=
  text.count '\n'

@[simp] theorem byteLength_nil : byteLength [] = 0 := rfl

@[simp] theorem byteLength_cons (c : Char) (text : List Char) :
    byteLength (c :: text) = c.utf8Size + byteLength text := rfl

@[simp] theorem byteLength_append (s t : List Char) :
    byteLength (s ++ t) = byteLength s + byteLength t := by
  induction s with
  | nil => simp
  | cons c s ih => simp [ih, Nat.add_assoc]

theorem byteLength_pos {text : List Char} (h : text ≠ []) : 0 < byteLength text := by
  cases text with
  | nil => contradiction
  | cons c text =>
    have := c.utf8Size_pos
    rw [byteLength_cons]
    omega

/-- Of two ways to cut a text in two, the first cuts no later, or the second cuts
inside its first part. -/
theorem append_eq_append_cases {first rest before after : List Char}
    (h : first ++ rest = before ++ after) :
    (∃ inner, before = first ++ inner ∧ rest = inner ++ after) ∨
      ∃ c inner, first = before ++ c :: inner ∧ after = c :: inner ++ rest := by
  rcases List.append_eq_append_iff.1 h with ⟨inner, hbefore, hrest⟩ | ⟨inner, hfirst, hafter⟩
  · exact .inl ⟨inner, hbefore, hrest⟩
  · cases inner with
    | nil => exact .inl ⟨[], by simpa using hfirst.symm, by simpa using hafter.symm⟩
    | cons c inner => exact .inr ⟨c, inner, hfirst, hafter⟩

theorem append_inj_of_byteLength_eq {first rest before after : List Char}
    (h : first ++ rest = before ++ after) (hlength : byteLength first = byteLength before) :
    first = before ∧ rest = after := by
  rcases append_eq_append_cases h with ⟨inner, rfl, rfl⟩ | ⟨c, inner, rfl, rfl⟩
  · cases inner with
    | nil => simp
    | cons c inner =>
      have := byteLength_pos (List.cons_ne_nil c inner)
      rw [byteLength_append] at hlength
      omega
  · have := byteLength_pos (List.cons_ne_nil c inner)
    rw [byteLength_append] at hlength
    omega

theorem utf8ByteSize_ofList (text : List Char) :
    (String.ofList text).utf8ByteSize = byteLength text := by
  induction text with
  | nil => rfl
  | cons c text ih =>
    rw [String.ofList_cons, String.utf8ByteSize_append, String.utf8ByteSize_singleton, ih,
      byteLength_cons]

theorem byteLength_toList (s : String) : byteLength s.toList = s.utf8ByteSize := by
  rw [← utf8ByteSize_ofList, String.ofList_toList]

@[simp] theorem lineFeeds_nil : lineFeeds [] = 0 := rfl

@[simp] theorem lineFeeds_append (s t : List Char) :
    lineFeeds (s ++ t) = lineFeeds s + lineFeeds t := by
  simp [lineFeeds]

theorem lineFeeds_cons (c : Char) (text : List Char) :
    lineFeeds (c :: text) = (if c = '\n' then 1 else 0) + lineFeeds text := by
  by_cases h : c = '\n' <;> simp [lineFeeds, h, Nat.add_comm]

theorem lineFeeds_le_byteLength (text : List Char) : lineFeeds text ≤ byteLength text := by
  induction text with
  | nil => exact Nat.le_refl 0
  | cons c text ih =>
      rw [lineFeeds_cons, byteLength_cons]
      have := c.utf8Size_pos
      split <;> omega

end ScriptLexer.Text
