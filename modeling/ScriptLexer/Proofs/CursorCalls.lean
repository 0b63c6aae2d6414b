import ScriptLexer.Proofs.TakingPast
import Mathlib.Data.List.DropRight

/-!
Operations of the cursor, called in any order. The scan calls them in a few patterns only;
here every finite sequence of calls is allowed, with any characters, classes and marks.

Two texts tell what a run of calls has done: the one that the calls took from the front of
the script, and the one whose line feeds they counted. The main result reads the state of
the cursor off these two. Each invariant is proved for one call, by cases on the operation,
and then for a run.
-/

namespace ScriptLexer

namespace Cursor

theorem advances_next (c : Cursor) : c.Advances c.next.2 := by
  unfold next
  split
  · exact Advances.refl c
  · next h => exact advances_take h

inductive Call where
  | mark
  | breakLine
  | next
  | accept (expected : Char)
  | takeRun (isMember : Char → Bool)
  | takeUpTo (stop : Char)
  | takePast (mark : List Char)
  | takeFraction

namespace Call

def apply (c : Cursor) : Call → Cursor
  | .mark => c.mark
  | .breakLine => c.breakLine
  | .next => c.next.2
  | .accept expected => (c.accept expected).2
  | .takeRun isMember => (c.takeRun isMember).2
  | .takeUpTo stop => (c.takeUpTo stop).2
  | .takePast closing => (c.takePast closing).2
  | .takeFraction => c.takeFraction.2

def Fails (c : Cursor) : Call → Prop
  | .next => c.next.1 = none
  | .accept expected => (c.accept expected).1 = false
  | .takeFraction => c.takeFraction.1 = none
  | _ => False

/-! ### What one call adds -/

def taken (c : Cursor) (call : Call) : List Char :=
  c.textTo (call.apply c)

/-- The text whose line feeds the call counts, of the one that it takes: all of it up to a
character, and up to a mark that was found all but the mark. -/
def counted (c : Cursor) : Call → List Char
  | .takeUpTo stop => taken c (.takeUpTo stop)
  | .takePast closing =>
    match (c.takePast closing).1 with
    | some _ => (taken c (.takePast closing)).rdrop closing.length
    | none => taken c (.takePast closing)
  | _ => []

def breaksLine : Call → Bool
  | .breakLine => true
  | _ => false

/-! ### One call -/

variable {c : Cursor}

theorem apply_eq_mark_or_advances (c : Cursor) (call : Call) :
    call.apply c = c.mark ∨ c.Advances (call.apply c) := by
  cases call with
  | mark => exact .inl rfl
  | breakLine => exact .inr c.advances_breakLine
  | next => exact .inr c.advances_next
  | accept expected => exact .inr (c.advances_accept expected)
  | takeRun isMember => exact .inr (c.advances_takeRun isMember)
  | takeUpTo stop => exact .inr (c.advances_takeUpTo stop)
  | takePast mark => exact .inr (c.advances_takePast mark)
  | takeFraction => exact .inr c.advances_takeFraction

theorem isPlaced_apply {script : List Char} (call : Call) (h : c.IsPlaced script) :
    (call.apply c).IsPlaced script := by
  rcases call.apply_eq_mark_or_advances c with hmark | hadvances
  · rw [hmark]
    exact h.mark
  · exact h.of_advances hadvances

theorem taken_append (c : Cursor) (call : Call) :
    call.taken c ++ (call.apply c).rest = c.rest := by
  rcases call.apply_eq_mark_or_advances c with hmark | hadvances
  · simp [taken, textTo, hmark, Cursor.mark]
  · exact hadvances.textTo_append

theorem offset_apply (c : Cursor) (call : Call) :
    (call.apply c).offset = c.offset + Text.byteLength (call.taken c) := by
  rcases call.apply_eq_mark_or_advances c with hmark | hadvances
  · simp [taken, textTo, hmark, Cursor.mark, offset]
  · exact hadvances.offset_eq

theorem line_apply (c : Cursor) (call : Call) :
    (call.apply c).line =
      c.line + (if call.breaksLine then 1 else 0) + Text.lineFeeds (call.counted c) := by
  cases call with
  | mark => rfl
  | breakLine => rfl
  | takeRun isMember => rfl
  | next =>
      simp only [apply, Cursor.next]
      split <;> rfl
  | accept expected =>
      simp only [apply, Cursor.accept]
      split
      · rfl
      · split <;> rfl
  | takeFraction =>
      simp only [apply, Cursor.takeFraction]
      split
      · split <;> rfl
      · rfl
  | takeUpTo stop =>
      have htaken : taken c (.takeUpTo stop) = c.rest.takeWhile (· != stop) :=
        textTo_eq List.takeWhile_append_dropWhile.symm
      rw [counted, htaken]
      rfl
  | takePast mark =>
      by_cases h : mark <:+: c.rest
      · obtain ⟨before, after, hpasses⟩ := exists_passes h
        have htaken : taken c (.takePast mark) = before ++ mark := hpasses.textTo_takePast
        have hcounted : counted c (.takePast mark) = before := by
          simp only [counted, hpasses.result, htaken, List.rdrop_append_length]
        simp only [apply, hcounted, hpasses.result]
        rfl
      · have hresult := takePast_of_not_infix h
        have htaken : taken c (.takePast mark) = c.rest := textTo_takePast_of_missing h
        have hcounted : counted c (.takePast mark) = c.rest := by
          simp only [counted, hresult, htaken]
        simp only [apply, hcounted, hresult]
        rfl

theorem startLine_apply_le (call : Call) (h : c.startLine ≤ c.line) :
    (call.apply c).startLine ≤ (call.apply c).line := by
  rcases call.apply_eq_mark_or_advances c with hmark | ⟨_, hstartLine, _⟩
  · rw [hmark]
    exact Nat.le_refl c.line
  · rw [hstartLine, line_apply]
    omega

theorem apply_of_fails {call : Call} : call.Fails c → call.apply c = c := by
  cases call with
  | next =>
      simp only [Fails, apply, Cursor.next]
      split
      · exact fun _ => rfl
      · rintro ⟨⟩
  | accept expected =>
      simp only [Fails, apply, Cursor.accept]
      split
      · exact fun _ => rfl
      · split
        · rintro ⟨⟩
        · exact fun _ => rfl
  | takeFraction =>
      simp only [Fails, apply, Cursor.takeFraction]
      split
      -- A point stands there, with digits behind it or without.
      · split
        · exact fun _ => rfl
        · rintro ⟨⟩
      · exact fun _ => rfl
  | _ => exact False.elim

end Call

/-! ### Runs of calls -/

def after (c : Cursor) (calls : List Call) : Cursor :=
  calls.foldl Call.apply c

/-- What a run of calls adds up to, if each call adds a text that it finds by the cursor. -/
def gather (text : Cursor → Call → List Char) : Cursor → List Call → List Char
  | _, [] => []
  | c, call :: calls => text c call ++ gather text (call.apply c) calls

theorem after_induction {motive : Cursor → Prop}
    (hcall : ∀ c (call : Call), motive c → motive (call.apply c)) {c : Cursor} (h : motive c)
    (calls : List Call) : motive (c.after calls) := by
  induction calls generalizing c with
  | nil => exact h
  | cons call calls ih => exact ih (hcall c call h)

theorem gather_taken_append (c : Cursor) (calls : List Call) :
    gather Call.taken c calls ++ (c.after calls).rest = c.rest := by
  induction calls generalizing c with
  | nil => rfl
  | cons call calls ih =>
      rw [gather, List.append_assoc]
      exact (congrArg _ (ih _)).trans (call.taken_append c)

theorem offset_after (c : Cursor) (calls : List Call) :
    (c.after calls).offset = c.offset + Text.byteLength (gather Call.taken c calls) := by
  induction calls generalizing c with
  | nil => rfl
  | cons call calls ih =>
      rw [gather, Text.byteLength_append, ← Nat.add_assoc, ← call.offset_apply c]
      exact ih _

theorem line_after (c : Cursor) (calls : List Call) :
    (c.after calls).line =
      c.line + calls.countP Call.breaksLine + Text.lineFeeds (gather Call.counted c calls) := by
  induction calls generalizing c with
  | nil => rfl
  | cons call calls ih =>
      have hrest : (c.after (call :: calls)).line = _ := ih (call.apply c)
      rw [hrest, call.line_apply c, List.countP_cons, gather, Text.lineFeeds_append]
      omega

theorem isPlaced_after (script : List Char) (calls : List Call) :
    ((ofText script).after calls).IsPlaced script :=
  after_induction (fun _ call => call.isPlaced_apply) (isPlaced_ofText script) calls

/-- What the cursor `c` holds agrees with the calls that have brought it through `script`. -/
structure Agrees (script : List Char) (calls : List Call) (c : Cursor) : Prop where
  place : ∃ before, script = before ++ c.lexeme ++ c.rest ∧
    c.start = Text.byteLength before ∧ c.offset = Text.byteLength (before ++ c.lexeme)
  bounds : c.start ≤ c.offset ∧ c.offset ≤ Text.byteLength script
  lexeme : Text.slice? c.start c.offset script = some c.lexeme
  span : c.span = ⟨c.start, c.offset - c.start⟩
  taken : gather Call.taken (ofText script) calls ++ c.rest = script
  offset : c.offset = Text.byteLength (gather Call.taken (ofText script) calls)
  offset_le : ∀ more, c.offset ≤ (c.after more).offset
  line : c.line = 1 + calls.countP Call.breaksLine +
    Text.lineFeeds (gather Call.counted (ofText script) calls)
  startLine_le : c.startLine ≤ c.line
  unchanged : ∀ call : Call, call.Fails c → call.apply c = c

/-- Whatever is called, in whatever order, the cursor agrees with it. -/
theorem agrees_after (script : List Char) (calls : List Call) :
    Agrees script calls ((ofText script).after calls) where
  place := by
    obtain ⟨before, hscript, hstart⟩ := isPlaced_after script calls
    refine ⟨before, hscript, hstart, ?_⟩
    rw [Cursor.offset, hstart, Text.byteLength_append]
  bounds := by
    have hoffset := (isPlaced_after script calls).offset_add
    exact ⟨Nat.le_add_right .., by omega⟩
  lexeme := (isPlaced_after script calls).slice?_eq
  span := by rw [Cursor.offset, Nat.add_sub_cancel_left, Cursor.span]
  taken := gather_taken_append (ofText script) calls
  offset := by simpa [ofText, Cursor.offset] using offset_after (ofText script) calls
  offset_le more := by
    rw [offset_after _ more]
    exact Nat.le_add_right ..
  line := line_after (ofText script) calls
  startLine_le :=
    after_induction (motive := fun c => c.startLine ≤ c.line)
      (fun _ call => call.startLine_apply_le) (Nat.le_refl 1) calls
  unchanged _ := Call.apply_of_fails

/-- A line feed counts when it is taken up to something, not when it is taken as a character. -/
example : ((ofText "\n\n".toList).after [.next, .takeUpTo ';']).line = 2 := rfl

end Cursor

end ScriptLexer
