/-!
Exit statuses, after the BSD convention `sysexits`.
-/

namespace ScriptLexer

inductive ExitStatus where
  | success
  | usage
  | dataError
  | noInput
  /-- A failure that has no status of its own. -/
  | software
  | ioError
  deriving DecidableEq

def ExitStatus.code : ExitStatus → Nat
  | success => 0
  | usage => 64
  | dataError => 65
  | noInput => 66
  | software => 70
  | ioError => 74

theorem ExitStatus.code_injective {s t : ExitStatus} (h : s.code = t.code) : s = t := by
  cases s <;> cases t <;> simp_all [code]

end ScriptLexer
