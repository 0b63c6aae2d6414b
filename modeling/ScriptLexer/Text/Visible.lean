/-!
The visible part of a text that goes to a terminal. Control characters are left
out, white space apart, and so are control sequences: what an escape character
begins, up to where a terminal would take it to end.
-/

namespace ScriptLexer.Text

inductive Control where
  | ground
  | escape
  /-- After an escape character and marks that qualify it. -/
  | escapeMarks
  /-- After an escape character and a bracket. -/
  | sequence
  /-- At the head of a device string: at its start, in its parameters, or in the
  marks behind them. -/
  | deviceStart
  | deviceParameters
  | deviceMarks
  /-- In a string that only its terminator ends. -/
  | string
  /-- In a string that a bell ends. -/
  | bellString
  deriving DecidableEq

def isSpacing (c : Char) : Bool :=
  c = '\t' || c = '\n' || c = '\x0c' || c = '\r'

def isSeen (c : Char) : Bool :=
  isSpacing c || (' ' ≤ c && c ≠ '\x7f')

namespace Control

/-- Whether a character is seen. Sequences that are no strings let white space
through. -/
def shows (state : Control) (c : Char) : Bool :=
  match state with
  | ground => isSeen c
  | escape | escapeMarks | sequence => isSpacing c
  | deviceStart | deviceParameters | deviceMarks | string | bellString => false

def afterMark : Control → Char → Control
  | ground, _ => ground
  | escape, c =>
    if c ≤ '/' then escapeMarks
    else match c with
      | '[' => sequence
      | ']' => bellString
      | 'P' => deviceStart
      | 'X' | '^' | '_' => string
      | _ => ground
  | escapeMarks, c => if c ≤ '/' then escapeMarks else ground
  | sequence, c => if c ≤ '?' then sequence else ground
  | deviceStart, c =>
    if c ≤ '/' then deviceMarks else if c ≤ '?' then deviceParameters else string
  | deviceParameters, c =>
    if c ≤ '/' then deviceMarks else if c ≤ ';' then deviceParameters else string
  | deviceMarks, c => if c ≤ '/' then deviceMarks else string
  | string, _ => string
  | bellString, _ => bellString

/-- What a character leads to. An escape character begins anew wherever it
stands, and a cancel or a substitute ends every sequence. The terminator of a
string is the byte 0x9C, also as one of the bytes that encode a character. -/
def next (state : Control) (c : Char) : Control :=
  if c = '\x1b' then escape
  else if c = '\x18' || c = '\x1a' then ground
  else if c < ' ' then
    if state = bellString && c = '\x07' then ground else state
  else if c < '\x7f' then state.afterMark c
  else if state = string && (String.utf8EncodeChar c).contains 0x9C then ground
  else state

end Control

/-- What is seen of a text. White space that is seen within a sequence suspends
it: all that can be seen is then seen, until a character that cannot; there the
sequence goes on, unless a character beyond ASCII has ended it. -/
def visibleFrom (state : Control) (suspended : Bool) : List Char → List Char
  | [] => []
  | c :: text =>
    if state.shows c || (suspended && isSeen c) then
      c :: visibleFrom (if c < '\x7f' then state else .ground) true text
    else visibleFrom (state.next c) false text

def visible (text : String) : String :=
  String.ofList (visibleFrom .ground false text.toList)

theorem Control.isSeen_of_shows {state : Control} {c : Char} (h : state.shows c = true) :
    isSeen c = true := by
  cases state <;> simp_all [Control.shows, isSeen]

theorem isSeen_of_mem_visibleFrom {state : Control} {suspended : Bool} {text : List Char} {c : Char}
    (h : c ∈ visibleFrom state suspended text) : isSeen c = true := by
  induction text generalizing state suspended with
  | nil => simp [visibleFrom] at h
  | cons d text ih =>
    rw [visibleFrom] at h
    split at h
    · next hd =>
      rcases List.mem_cons.1 h with rfl | h
      · rcases Bool.or_eq_true_iff.1 hd with hd | hd
        · exact Control.isSeen_of_shows hd
        · exact (Bool.and_eq_true_iff.1 hd).2
      · exact ih h
    · exact ih h

theorem visibleFrom_ground_eq_self {suspended : Bool} {text : List Char}
    (h : ∀ c ∈ text, isSeen c = true) : visibleFrom .ground suspended text = text := by
  induction text generalizing suspended with
  | nil => rfl
  | cons c text ih =>
    have hc : Control.ground.shows c = true := h c List.mem_cons_self
    rw [visibleFrom, hc, Bool.true_or, if_pos rfl, ite_self,
      ih fun d hd => h d (List.mem_cons_of_mem _ hd)]

/-- What is seen of a text is seen as it stands. -/
theorem visible_visible (text : String) : visible (visible text) = visible text := by
  simp only [visible, String.toList_ofList]
  rw [visibleFrom_ground_eq_self fun c => isSeen_of_mem_visibleFrom]

example : visible (visible "a\x1b[38;5;1mb\x07c\x7fd\x1bMe") = "abcde" := by
  decide +kernel

end ScriptLexer.Text
