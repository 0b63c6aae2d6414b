import ScriptLexer.Proofs.Prompting
import ScriptLexer.Proofs.ShownMessages

/-!
A run of a script, in closed form. Bytes that are no text end it before anything is
scanned. Of a text the listing, the status and the messages come from its scan alone; the
flag for labels decides only in which form a fault is said: as a report, or as a diagnostic
drawn by others. Both forms have one message, and show it on one line if the drawing does.
Log lines are among the notices of a run, and without a filter none of them is shown: what
is said are the other notices.
-/

namespace ScriptLexer

/-! ### Asking for a run -/

namespace CommandLine

def formatArgument : Listing.Format → String
  | .text => "--format=text"
  | .json => "--format=json"

def switchArguments (listTokens labelled : Bool) : List String :=
  (if listTokens then [Switch.listTokens.text] else []) ++
    (if labelled then [Switch.labelled.text] else [])

/-- Arguments that ask for a run of the script at a path, which may begin with a hyphen. -/
def scriptArguments (options : Options) (path : String) : List String :=
  switchArguments options.listTokens options.labelled ++
    [formatArgument options.format, "--", path]

section

variable (listTokens labelled : Bool) (format : Listing.Format)

theorem read_switchArguments (others : List String) :
    read .start (switchArguments listTokens labelled ++ others) =
      read ⟨none, listTokens, none, labelled, none, false⟩ others := by
  cases listTokens <;> cases labelled <;> rfl

theorem read_formatArgument (others : List String) :
    read ⟨none, listTokens, none, labelled, none, false⟩ (formatArgument format :: others) =
      read ⟨none, listTokens, some format, labelled, none, false⟩ others := by
  cases format <;> rfl

theorem read_path {path : String} (hpath : path ≠ "") :
    read ⟨none, listTokens, some format, labelled, none, false⟩ ["--", path] =
      .ok (.run ⟨some path, listTokens, format, labelled⟩) := by
  let p : Progress := ⟨none, listTokens, some format, labelled, some (.script path), true⟩
  have hread : read ⟨none, listTokens, some format, labelled, none, false⟩ ["--", path] =
      p.finish := rfl
  have hsettle : p.settle = .ok { p with script := some path, held := none } := by
    simp [p, Progress.settle]
  rw [hread, Progress.finish, hsettle]
  rfl

end

theorem parse_scriptArguments (options : Options) {path : String} (hpath : path ≠ "") :
    parse (scriptArguments options path) = .ok (.run { options with script := some path }) := by
  rw [parse, scriptArguments, read_switchArguments, read_formatArgument,
    read_path _ _ _ hpath]

example : parse ["--fancy", "--format=json", "--", "-s"] =
    .ok (.run ⟨some "-s", false, .json, true⟩) := by
  rfl

end CommandLine

/-! ### What is said -/

namespace Notice

/-- Whether a notice is shown whatever the filter. -/
def isSaid : Notice → Bool
  | log _ => false
  | _ => true

def message : Notice → String
  | log event => event.text
  | report r => r.message
  | diagnostic d => d.fault.message
  | refusal r => r.message

def plain : Notice → Notice
  | diagnostic d => .report (.ofFault d.fault)
  | notice => notice

end Notice

def Outcome.said (outcome : Outcome) : List Notice :=
  outcome.notices.filter Notice.isSaid

namespace Session

variable (facilities : Facilities)

theorem noticesText_cons (notice : Notice) (notices : List Notice) :
    noticesText facilities (notice :: notices) =
      notice.text facilities [] ++ noticesText facilities notices := by
  simp [noticesText]

theorem noticesText_filter_isSaid (notices : List Notice) :
    noticesText facilities (notices.filter Notice.isSaid) = noticesText facilities notices := by
  induction notices with
  | nil => rfl
  | cons notice notices ih =>
      rw [noticesText_cons, ← ih]
      cases notice with
      | log event => exact String.empty_append.symm
      | _ => rw [List.filter_cons_of_pos rfl, noticesText_cons]

theorem noticeText_eq (outcome : Outcome) :
    outcome.noticeText facilities [] = noticesText facilities outcome.said :=
  (noticesText_filter_isSaid facilities outcome.notices).symm

/-! ### A fault and the summary -/

def faultNotice (options : Options) (path text : String) (fault : Fault) : Notice :=
  if options.labelled then .diagnostic ⟨fault, path, text⟩ else .report (.ofFault fault)

/-- The text in which a fault of a script is said. -/
def faultText (options : Options) (path text : String) (fault : Fault) : String :=
  if options.labelled then facilities.draw ⟨fault, path, text⟩ ++ "\n"
  else "Error '" ++ fault.message ++ "'\n"

def summaryMessage (path : String) (count : Nat) : String :=
  toString count ++ " lexical error(s) in '" ++ path ++ "'"

def summaryNotices (path : String) (faults : List Fault) : List Notice :=
  if faults = [] then [] else [.report ⟨summaryMessage path faults.length, none⟩]

section

variable (options : Options) (path text : String) (fault : Fault) (faults : List Fault)

@[simp] theorem isSaid_faultNotice : (faultNotice options path text fault).isSaid = true := by
  unfold faultNotice
  split <;> rfl

@[simp] theorem message_faultNotice :
    (faultNotice options path text fault).message = fault.message := by
  unfold faultNotice
  split <;> rfl

@[simp] theorem plain_faultNotice :
    (faultNotice options path text fault).plain = .report (.ofFault fault) := by
  unfold faultNotice
  split <;> rfl

@[simp] theorem text_faultNotice (filter : Log.Filter) :
    (faultNotice options path text fault).text facilities filter =
      faultText facilities options path text fault := by
  unfold faultNotice faultText
  split <;> rfl

variable {facilities fault} in
/-- In both forms a fault of the scanner is said with its message on one line. -/
theorem onOneLine_faultText (hshows : facilities.ShowsMessages)
    (hmessage : '\n' ∉ fault.message.toList) :
    Text.OnOneLine fault.message (faultText facilities options path text fault) := by
  unfold faultText
  split
  · exact (hshows ⟨fault, path, text⟩ hmessage).append_lineFeed
  · let line := "Error '".toList ++ (fault.message.toList ++ ['\''])
    have hline : '\n' ∉ line := by simp [line, hmessage]
    have htext : ("Error '" ++ fault.message ++ "'\n").toList = line ++ '\n' :: [] := by
      simp [line]
    refine ⟨line, ?_, ?_⟩
    · rw [htext, Text.pieces_append_cons hline]
      exact List.mem_cons_self
    · exact (List.prefix_append _ _).isInfix.trans (List.suffix_append _ _).isInfix

@[simp] theorem filter_isSaid_summaryNotices :
    (summaryNotices path faults).filter Notice.isSaid = summaryNotices path faults := by
  unfold summaryNotices
  split <;> rfl

@[simp] theorem map_message_summaryNotices :
    (summaryNotices path faults).map Notice.message =
      if faults = [] then [] else [summaryMessage path faults.length] := by
  unfold summaryNotices
  split <;> rfl

@[simp] theorem noticesText_summaryNotices :
    noticesText facilities (summaryNotices path faults) =
      if faults = [] then "" else "Error '" ++ summaryMessage path faults.length ++ "'\n" := by
  unfold summaryNotices
  split
  · rfl
  · simp [noticesText, Notice.text, Report.line]

/-! ### A scanned script -/

theorem labelledFaults_eq (scan : Scan) :
    labelledFaults scan path text = (scan.diagnostics path text).map .diagnostic := by
  unfold labelledFaults Scan.labelledResult Scan.result Scan.hasFaults Scan.diagnostics
  cases scan.faults <;> rfl

theorem map_faultNotice (scan : Scan) :
    scan.faults.map (faultNotice options path text) =
      if options.labelled then labelledFaults scan path text else faultReports scan.faults := by
  unfold faultNotice
  split
  · rw [labelledFaults_eq, Scan.diagnostics, Diagnostic.ofFaults, List.map_map]
    rfl
  · rfl

theorem scanScript_eq :
    scanScript facilities options path text =
      ⟨if (scan text).faults = [] then .success else .dataError,
        if options.listTokens then Listing.render facilities.style options.format (scan text).tokens
        else "",
        (scanEvents (scan text)).map .log ++
          ((scan text).faults.map (faultNotice options path text) ++
            summaryNotices path (scan text).faults)⟩ := by
  rw [scanScript, map_faultNotice]
  by_cases hclean : (scan text).faults = []
  · simp [Scan.hasFaults, summaryNotices, labelledFaults_eq, Scan.diagnostics,
      Diagnostic.ofFaults, faultReports, hclean]
  · simp [Scan.hasFaults, summaryNotices, hclean]
    exact ⟨rfl, rfl⟩

theorem said_scanScript :
    (scanScript facilities options path text).said =
      (scan text).faults.map (faultNotice options path text) ++
        summaryNotices path (scan text).faults := by
  have hfaults : ((scan text).faults.map (faultNotice options path text)).filter Notice.isSaid =
      (scan text).faults.map (faultNotice options path text) := by
    simp [List.filter_eq_self]
  have hlogs : ((scanEvents (scan text)).map Notice.log).filter Notice.isSaid = [] := by
    simp [Notice.isSaid]
  rw [scanScript_eq, Outcome.said, List.filter_append, List.filter_append, hfaults, hlogs,
    filter_isSaid_summaryNotices, List.nil_append]

end

/-! ### A whole run -/

def unreadableMessage (path : String) : String :=
  "failed to read '" ++ path ++ "'"

/-- A run on a script at `path` that is no text. -/
structure RefusesScript (path : String) (outcome : Outcome) : Prop where
  output : outcome.output = ""
  said : outcome.said = [.report ⟨unreadableMessage path, some Script.notText⟩]
  errors : outcome.noticeText facilities [] =
    "Error '" ++ unreadableMessage path ++ "' on " ++ Script.notText ++ "\n"
  status : outcome.status.code = 74

/-- A run on the script `text` at `path`. -/
structure ScansScript (options : Options) (path text : String) (outcome : Outcome) : Prop where
  output : outcome.output =
    if options.listTokens then Listing.render facilities.style options.format (scan text).tokens
    else ""
  status : outcome.status.code = if (scan text).faults = [] then 0 else 65
  said : outcome.said = (scan text).faults.map (faultNotice options path text) ++
    summaryNotices path (scan text).faults
  messages : outcome.said.map Notice.message = (scan text).messages ++
    if (scan text).faults = [] then [] else [summaryMessage path (scan text).faults.length]
  errors : outcome.noticeText facilities [] =
    String.join ((scan text).faults.map (faultText facilities options path text)) ++
      if (scan text).faults = [] then ""
      else "Error '" ++ summaryMessage path (scan text).faults.length ++ "'\n"
  shows : ∀ fault ∈ (scan text).faults,
    Text.OnOneLine fault.message (faultText facilities options path text fault)
  clean : outcome.noticeText facilities [] = "" ↔ (scan text).faults = []

/-- Two runs that differ at most in the form of what they say. -/
structure SameButForm (first second : Outcome) : Prop where
  output : second.output = first.output
  status : second.status = first.status
  plain : second.said.map Notice.plain = first.said.map Notice.plain
  messages : second.said.map Notice.message = first.said.map Notice.message

section

variable {facilities} {options : Options} {path : String}

theorem noticeText_after_log (outcome : Outcome) (event : Log.Event) :
    (outcome.after "" [.log event]).noticeText facilities [] =
      outcome.noticeText facilities [] := by
  rw [noticeText_eq, noticeText_eq]
  rfl

theorem RefusesScript.after_log {outcome : Outcome} (h : RefusesScript facilities path outcome)
    (event : Log.Event) : RefusesScript facilities path (outcome.after "" [.log event]) where
  output := by rw [Outcome.after, h.output]; rfl
  said := h.said
  errors := by rw [noticeText_after_log, h.errors]
  status := h.status

theorem ScansScript.after_log {text : String} {outcome : Outcome}
    (h : ScansScript facilities options path text outcome) (event : Log.Event) :
    ScansScript facilities options path text (outcome.after "" [.log event]) where
  output := by rw [Outcome.after, String.empty_append, h.output]
  status := h.status
  said := h.said
  messages := h.messages
  errors := by rw [noticeText_after_log, h.errors]
  shows := h.shows
  clean := by rw [noticeText_after_log, h.clean]

theorem refusesScript_unreadable (path : String) :
    let failure := Failure.scriptUnreadable path Script.notText
    RefusesScript facilities path ⟨failure.status, "", [.report failure.report]⟩ where
  output := rfl
  said := rfl
  errors := by
    show String.join [_] = _
    rw [String.join_cons, String.join_nil, String.append_empty]
    rfl
  status := rfl

theorem scansScript_scanScript (hshows : facilities.ShowsMessages) (options : Options)
    (path text : String) :
    ScansScript facilities options path text (scanScript facilities options path text) := by
  have herrors : (scanScript facilities options path text).noticeText facilities [] =
      String.join ((scan text).faults.map (faultText facilities options path text)) ++
        if (scan text).faults = [] then ""
        else "Error '" ++ summaryMessage path (scan text).faults.length ++ "'\n" := by
    rw [noticeText_eq, said_scanScript, noticesText_append, noticesText_summaryNotices,
      noticesText, List.map_map]
    simp [Function.comp_def]
  refine ⟨?_, ?_, said_scanScript facilities options path text, ?_, herrors, ?_, ?_⟩
  · rw [scanScript_eq]
  · rw [scanScript_eq]
    show ExitStatus.code (if _ then _ else _) = _
    split <;> rfl
  · rw [said_scanScript, List.map_append, map_message_summaryNotices, List.map_map]
    simp [Function.comp_def, Scan.messages]
  · intro fault hfault
    exact onOneLine_faultText options path text hshows (Scan.lineFeed_not_mem_message hfault)
  · rw [herrors]
    by_cases hclean : (scan text).faults = []
    · simp [hclean]
    · simp [hclean, String.append_eq_empty_iff]

end

section

variable {facilities} {arguments : List String} {options : Options} {path : String} {files : Files}
  {bytes : List UInt8} (harguments : CommandLine.parse arguments = .ok (.run options))
  (hscript : options.script = some path) (hfile : files path = .ok bytes) (input : List UInt8)

include harguments hscript hfile

omit hfile in
theorem run_eq_runScript : run facilities arguments files input =
    (runScript facilities options files path).after "" [.log (.argumentsRead options)] := by
  rw [run, harguments]
  dsimp only
  rw [runOptions, hscript]

theorem refusesScript_run (htext : Text.decodeUtf8? bytes = none) :
    RefusesScript facilities path (run facilities arguments files input) := by
  rw [run_eq_runScript harguments hscript, runScript, Script.load, hfile]
  dsimp only
  rw [htext]
  exact (refusesScript_unreadable path).after_log _

theorem scansScript_run (hshows : facilities.ShowsMessages) {text : String}
    (htext : Text.decodeUtf8? bytes = some text) :
    ScansScript facilities options path text (run facilities arguments files input) := by
  rw [run_eq_runScript harguments hscript, runScript, Script.load, hfile]
  dsimp only
  rw [htext]
  exact ((scansScript_scanScript hshows options path text).after_log _).after_log _

end

structure RunsFile (options : Options) (path : String) (bytes : List UInt8)
    (outcome : Outcome) : Prop where
  refuses : Text.decodeUtf8? bytes = none → RefusesScript facilities path outcome
  scans : ∀ text, Text.decodeUtf8? bytes = some text →
    ScansScript facilities options path text outcome

variable {facilities}

theorem runsFile_run (hshows : facilities.ShowsMessages) {arguments : List String}
    {options : Options} (harguments : CommandLine.parse arguments = .ok (.run options))
    {path : String} (hscript : options.script = some path) {files : Files} {bytes : List UInt8}
    (hfile : files path = .ok bytes) (input : List UInt8) :
    RunsFile facilities options path bytes (run facilities arguments files input) :=
  ⟨refusesScript_run harguments hscript hfile input,
    fun _ => scansScript_run harguments hscript hfile input hshows⟩

theorem RunsFile.sameButForm {options : Options} {path : String} {bytes : List UInt8}
    {first second : Outcome} (labelled : Bool)
    (hfirst : RunsFile facilities options path bytes first)
    (hsecond : RunsFile facilities { options with labelled } path bytes second) :
    SameButForm first second := by
  cases htext : Text.decodeUtf8? bytes with
  | none =>
      have h := hfirst.refuses htext
      have h' := hsecond.refuses htext
      refine ⟨?_, ?_, ?_, ?_⟩
      · rw [h'.output, h.output]
      · exact ExitStatus.code_injective (h'.status.trans h.status.symm)
      · rw [h'.said, h.said]
      · rw [h'.said, h.said]
  | some text =>
      have h := hfirst.scans text htext
      have h' := hsecond.scans text htext
      refine ⟨?_, ?_, ?_, ?_⟩
      · rw [h'.output, h.output]
      · exact ExitStatus.code_injective (h'.status.trans h.status.symm)
      · rw [h'.said, h.said, List.map_append, List.map_append, List.map_map, List.map_map]
        simp [Function.comp_def]
      · rw [h'.messages, h.messages]

/-- What a run makes of any file, if drawings show the messages of their diagnostics. Another
run on it, which differs at most in the flag for labels, gives the same but for the form of
the faults. -/
theorem run_script (hshows : facilities.ShowsMessages) {arguments : List String}
    {options : Options} (harguments : CommandLine.parse arguments = .ok (.run options))
    {path : String} (hscript : options.script = some path) {files : Files} {bytes : List UInt8}
    (hfile : files path = .ok bytes) (input : List UInt8) :
    RunsFile facilities options path bytes (run facilities arguments files input) ∧
      ∀ labelled others, CommandLine.parse others = .ok (.run { options with labelled }) →
        SameButForm (run facilities arguments files input)
          (run facilities others files input) := by
  have hrun := runsFile_run hshows harguments hscript hfile input
  refine ⟨hrun, fun labelled others hothers => hrun.sameButForm labelled ?_⟩
  exact runsFile_run hshows hothers hscript hfile input

/-- The script has two faults. It is run with labels, and without. -/
theorem run_script_faulty :
    let files := (FileTree.empty.insert "a" (.file [64, 10, 34])).read
    let options : Options := ⟨some "a", true, .json, true⟩
    let arguments := CommandLine.scriptArguments options "a"
    let others := ["a", "--format", "json", "--dump-tokens"]
    Facilities.usual.ShowsMessages ∧ CommandLine.parse arguments = .ok (.run options) ∧
      options.script = some "a" ∧ files "a" = .ok [64, 10, 34] ∧
      Text.decodeUtf8? [64, 10, 34] = some "@\n\"" ∧
      ScansScript .usual options "a" "@\n\"" (run .usual arguments files []) ∧
      (run .usual arguments files []).noticeText .usual [] =
        "glox::scan\n\n  × Invalid character '@' at line 1\n   ╭─[a:1:1]\n 1 │ @\n" ++
        "   · ┬\n   · ╰── here\n 2 │ \"\n   ╰────\n\n" ++
        "glox::scan\n\n  × Unterminated string at line 2\n   ╭─[a:2:1]\n 1 │ @\n" ++
        " 2 │ \"\n   · ┬\n   · ╰── here\n   ╰────\n\n" ++
        "Error '2 lexical error(s) in 'a''\n" ∧
      CommandLine.parse others = .ok (.run { options with labelled := false }) ∧
      SameButForm (run .usual arguments files []) (run .usual others files []) := by
  intro files options arguments others
  have harguments : CommandLine.parse arguments = .ok (.run options) :=
    CommandLine.parse_scriptArguments options (by decide)
  have hfile : files "a" = .ok [64, 10, 34] := rfl
  have htext : Text.decodeUtf8? [64, 10, 34] = some "@\n\"" := by decide +kernel
  have hothers : CommandLine.parse others = .ok (.run { options with labelled := false }) := rfl
  have hrun := run_script Facilities.showsMessages_usual harguments rfl hfile []
  have hscans := hrun.1.scans _ htext
  refine ⟨Facilities.showsMessages_usual, harguments, rfl, hfile, htext, hscans, ?_, hothers,
    hrun.2 false others hothers⟩
  rw [hscans.errors]
  decide +kernel

end Session

end ScriptLexer
