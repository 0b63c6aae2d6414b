import ScriptLexer.Session

/-!
A run of the prompt, in closed form. The lines of the input are what lies between its line
feeds, and the texts that are shown are those in front of the first line that is no text,
blank ones left out. Nothing is carried from one line to the next: what a run writes and
says is put together from what each shown text gives by itself, so a line that is no text
takes nothing back and lets nothing through.
-/

namespace ScriptLexer

namespace Prompt

/-! ### Lines -/

def trimReturn (line : List UInt8) : List UInt8 :=
  if line.getLast? = some carriageReturn then line.dropLast else line

/-- The lines between line feeds. What is behind the last line feed is one if it is not
empty, and nothing is dropped from it. -/
def splitLines (input : List UInt8) : List (List UInt8) :=
  let pieces := input.splitOn lineFeed
  pieces.dropLast.map trimReturn ++ pieces.getLast?.toList.filter fun line => !line.isEmpty

theorem reverse_dropReturn (taken : List UInt8) :
    (dropReturn taken).reverse = trimReturn taken.reverse := by
  cases taken with
  | nil => rfl
  | cons byte taken =>
      by_cases hbyte : byte = carriageReturn
      · simp [dropReturn, trimReturn, hbyte]
      · simp [dropReturn, trimReturn, hbyte]

theorem beq_lineFeed_eq_false {line : List UInt8} (h : lineFeed ∉ line) :
    ∀ x ∈ line, (x == lineFeed) = false := by
  intro x hx
  rw [beq_eq_false_iff_ne]
  rintro rfl
  exact h hx

theorem splitLines_eq_filter {line : List UInt8} (h : lineFeed ∉ line) :
    splitLines line = [line].filter fun line => !line.isEmpty := by
  rw [splitLines, List.splitOn_eq_splitOnP, List.splitOnP_eq_singleton (beq_lineFeed_eq_false h)]
  rfl

theorem splitLines_append_cons {line : List UInt8} (h : lineFeed ∉ line) (input : List UInt8) :
    splitLines (line ++ lineFeed :: input) = trimReturn line :: splitLines input := by
  have hpieces := List.splitOnP_ne_nil (· == lineFeed) input
  rw [splitLines, splitLines, List.splitOn_eq_splitOnP, List.splitOn_eq_splitOnP,
    List.splitOnP_append_cons_of_forall_mem (beq_lineFeed_eq_false h) _ (beq_self_eq_true _),
    List.dropLast_cons_of_ne_nil hpieces, List.getLast?_cons_of_ne_nil hpieces]
  rfl

theorem linesFrom_eq {taken : List UInt8} (htaken : lineFeed ∉ taken) (input : List UInt8) :
    linesFrom taken input = splitLines (taken.reverse ++ input) := by
  induction input generalizing taken with
  | nil =>
      rw [List.append_nil, splitLines_eq_filter (by simpa using htaken)]
      cases taken <;> simp [linesFrom]
  | cons byte input ih =>
      rw [linesFrom]
      split
      · next hbyte =>
        subst hbyte
        rw [ih List.not_mem_nil, reverse_dropReturn, splitLines_append_cons (by simpa using htaken)]
        rfl
      · next hbyte =>
        have hnot : lineFeed ∉ byte :: taken := by simp [Ne.symm hbyte, htaken]
        rw [ih hnot]
        simp

theorem lines_eq_splitLines (input : List UInt8) : lines input = splitLines input :=
  linesFrom_eq List.not_mem_nil input

example : lines [97, 13, 10, 10, 98, 13] = [[97], [], [98, 13]] := by decide

end Prompt

/-- The input is delivered line by line, and what is no text cannot be read. -/
def Facilities.DeliversLines (facilities : Facilities) (input : List UInt8) : Prop :=
  facilities.lines input = (Prompt.splitLines input).map Text.decodeUtf8?

theorem Facilities.deliversLines_usual (input : List UInt8) :
    Facilities.usual.DeliversLines input := by
  show (Prompt.lines input).map _ = _
  rw [Prompt.lines_eq_splitLines]

namespace Prompt

/-! ### What is shown -/

/-- The texts of the lines in front of the first that is no text. -/
def readable (lines : List (List UInt8)) : List String :=
  ((lines.map Text.decodeUtf8?).takeWhile Option.isSome).filterMap id

/-- The code points with the property White_Space. -/
def whiteSpace : List Nat :=
  [0x09, 0x0A, 0x0B, 0x0C, 0x0D, 0x20, 0x85, 0xA0, 0x1680, 0x2000, 0x2001, 0x2002, 0x2003,
   0x2004, 0x2005, 0x2006, 0x2007, 0x2008, 0x2009, 0x200A, 0x2028, 0x2029, 0x202F, 0x205F,
   0x3000]

def isBlank (line : String) : Bool :=
  line.toList.all fun c => whiteSpace.contains c.toNat

def shown (lines : List (List UInt8)) : List String :=
  (readable lines).filter fun line => !isBlank line

def allReadable (lines : List (List UInt8)) : Bool :=
  lines.all fun bytes => (Text.decodeUtf8? bytes).isSome

theorem contains_whiteSpace (c : Char) : whiteSpace.contains c.toNat = Text.isBlank c := by
  rw [Bool.eq_iff_iff, List.contains_iff_mem]
  simp only [whiteSpace, List.mem_cons, List.not_mem_nil, Text.isBlank, Text.inRanges,
    Text.blankRanges, List.any_cons, List.any_nil, Bool.or_eq_true, Bool.and_eq_true,
    decide_eq_true_eq, Bool.false_eq_true, or_false]
  omega

theorem isBlank_eq (line : String) : isBlank line = Text.allBlank line.toList := by
  simp only [isBlank, contains_whiteSpace, Text.allBlank]

section

variable {bytes : List UInt8} {lines : List (List UInt8)}

theorem shown_of_none (h : Text.decodeUtf8? bytes = none) : shown (bytes :: lines) = [] := by
  simp [shown, readable, h]

theorem shown_of_blank {line : String} (h : Text.decodeUtf8? bytes = some line)
    (hblank : isBlank line = true) : shown (bytes :: lines) = shown lines := by
  simp [shown, readable, h, hblank]

theorem shown_of_not_blank {line : String} (h : Text.decodeUtf8? bytes = some line)
    (hblank : isBlank line = false) :
    shown (bytes :: lines) = line :: shown lines := by
  simp [shown, readable, h, hblank]

end

end Prompt

namespace Session

open Prompt

variable (facilities : Facilities)

def lineNotices (line : String) : List Notice :=
  (scanEvents (scan line)).map .log ++ faultReports (scan line).faults

def endNotices (lines : List (List UInt8)) : List Notice :=
  if allReadable lines then [] else [.report ⟨"read line", some facilities.causes⟩]

def linesOutput (format : Listing.Format) (lines : List (List UInt8)) : String :=
  String.join ((shown lines).map fun line =>
    Listing.render facilities.style format (scan line).tokens)

theorem runLines_eq (format : Listing.Format) (lines : List (List UInt8)) :
    runLines facilities format (lines.map Text.decodeUtf8?) =
      ⟨if allReadable lines then .success else .software, linesOutput facilities format lines,
        (shown lines).flatMap lineNotices ++ endNotices facilities lines⟩ := by
  induction lines with
  | nil => rfl
  | cons bytes lines ih =>
      rw [List.map_cons]
      cases hdecode : Text.decodeUtf8? bytes with
      | none =>
          have hall : allReadable (bytes :: lines) = false := by simp [allReadable, hdecode]
          simp [runLines, unreadableLine, linesOutput, endNotices, shown_of_none hdecode, hall]
      | some line =>
          have hall : allReadable (bytes :: lines) = allReadable lines := by
            simp [allReadable, hdecode]
          rw [runLines, ← isBlank_eq]
          split
          · next hblank =>
            rw [ih, linesOutput, linesOutput, endNotices, endNotices, hall,
              shown_of_blank hdecode hblank]
          · next hblank =>
            rw [ih, linesOutput, linesOutput, endNotices, endNotices, hall,
              shown_of_not_blank hdecode (eq_false_of_ne_true hblank)]
            simp [Outcome.after, lineNotices]

/-! ### What is said -/

def noticesText (notices : List Notice) : String :=
  String.join (notices.map (Notice.text facilities []))

theorem noticesText_append (first second : List Notice) :
    noticesText facilities (first ++ second) =
      noticesText facilities first ++ noticesText facilities second := by
  rw [noticesText, List.map_append, String.join_append]
  rfl

theorem noticesText_logs (events : List Log.Event) :
    noticesText facilities (events.map .log) = "" := by
  induction events with
  | nil => rfl
  | cons event events ih =>
      rw [noticesText] at ih
      rw [noticesText, List.map_cons, List.map_cons, String.join_cons, ih]
      rfl

def faultLines (faults : List Fault) : String :=
  String.join (faults.map fun fault => "Error '" ++ fault.message ++ "'\n")

theorem noticesText_lineNotices (line : String) :
    noticesText facilities (lineNotices line) = faultLines (scan line).faults := by
  rw [lineNotices, noticesText_append, noticesText_logs, String.empty_append, noticesText,
    faultReports, List.map_map]
  rfl

theorem noticesText_flatMap (lines : List String) :
    noticesText facilities (lines.flatMap lineNotices) =
      String.join (lines.map fun line => faultLines (scan line).faults) := by
  induction lines with
  | nil => rfl
  | cons line lines ih =>
      rw [List.flatMap_cons, noticesText_append, noticesText_lineNotices, ih, List.map_cons,
        String.join_cons]

theorem noticesText_endNotices (lines : List (List UInt8)) :
    noticesText facilities (endNotices facilities lines) =
      if allReadable lines then "" else "Error 'read line' on " ++ facilities.causes ++ "\n" := by
  rw [endNotices]
  split
  · rfl
  · show String.join [_] = _
    rw [String.join_cons, String.join_nil, String.append_empty]
    rfl

/-! ### A whole run -/

structure Prompts (options : Options) (input : List UInt8) (outcome : Outcome) : Prop where
  output : outcome.output = String.join ((shown (splitLines input)).map fun line =>
    Listing.render facilities.style options.format (scan line).tokens)
  /-- With no filter of log lines, the faults of the same texts, and the failure if there
  is one. -/
  errors : outcome.noticeText facilities [] = String.join
      ((shown (splitLines input)).map fun line => faultLines (scan line).faults) ++
    if allReadable (splitLines input) then ""
    else "Error 'read line' on " ++ facilities.causes ++ "\n"
  status : outcome.status.code = if allReadable (splitLines input) then 0 else 70
  notices : outcome.notices = .log (.argumentsRead options) ::
    ((shown (splitLines input)).flatMap lineNotices ++ endNotices facilities (splitLines input))

/-- What the prompt makes of any input that is delivered line by line. -/
theorem run_prompts {arguments : List String} {options : Options}
    (harguments : CommandLine.parse arguments = .ok (.run options))
    (hscript : options.script = none) (files : Files) {input : List UInt8}
    (hlines : facilities.DeliversLines input) :
    Prompts facilities options input (run facilities arguments files input) := by
  have hrun : run facilities arguments files input =
      ⟨if allReadable (splitLines input) then .success else .software,
        linesOutput facilities options.format (splitLines input),
        .log (.argumentsRead options) :: ((shown (splitLines input)).flatMap lineNotices ++
          endNotices facilities (splitLines input))⟩ := by
    rw [run, harguments]
    dsimp only
    rw [runOptions, hscript]
    dsimp only
    rw [hlines, runLines_eq]
    simp [Outcome.after]
  rw [hrun]
  refine ⟨rfl, ?_, ?_, rfl⟩
  · show noticesText facilities (_ :: (_ ++ _)) = _
    rw [← List.singleton_append, noticesText_append, noticesText_append, noticesText_flatMap,
      noticesText_endNotices]
    exact String.empty_append
  · show ExitStatus.code (if _ then _ else _) = _
    split <;> rfl

/-- The second line is blank, the third has a fault, the fourth is no text, and the fifth is
not reached. -/
theorem run_prompts_unreadable :
    let options : Options := ⟨none, false, .json, false⟩
    let input : List UInt8 := [59, 13, 10, 32, 10, 64, 10, 255, 10, 59]
    CommandLine.parse ["--format", "json"] = .ok (.run options) ∧ options.script = none ∧
      Facilities.usual.DeliversLines input ∧
      Prompts .usual options input
        (run .usual ["--format", "json"] (fun _ => .error .missing) input) := by
  intro options input
  have harguments : CommandLine.parse ["--format", "json"] = .ok (.run options) := rfl
  have hlines := Facilities.deliversLines_usual input
  exact ⟨harguments, rfl, hlines, run_prompts .usual harguments rfl _ hlines⟩

end Session

end ScriptLexer
