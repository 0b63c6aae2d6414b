import ScriptLexer.Text.Plain

/-!
A text between quotes, as log lines show a script's name: the quote and the
backslash are escaped, and so is every character that could not be seen.
-/

namespace ScriptLexer.Text

def escape (c : Char) : List Char :=
  if c = '"' then ['\\', '"']
  else if c = '\\' then ['\\', '\\']
  else if c = '\x00' then ['\\', '0']
  else if c = '\t' then ['\\', 't']
  else if c = '\n' then ['\\', 'n']
  else if c = '\r' then ['\\', 'r']
  else if isPlain c then [c]
  else '\\' :: 'u' :: '\x7b' :: Nat.toDigits 16 c.toNat ++ ['\x7d']

def quoted (text : String) : String :=
  String.ofList ('"' :: text.toList.flatMap escape ++ ['"'])

theorem isPlain_of_mem_toDigits {n : Nat} {c : Char} (h : c ∈ Nat.toDigits 16 n) :
    isPlain c = true := by
  have hdigit : ∀ n < 16, isPlain n.digitChar = true := by decide +kernel
  induction n using Nat.strongRecOn with
  | ind n ih =>
    rw [Nat.toDigits_eq_if (by decide)] at h
    split at h
    · next hn => exact List.mem_singleton.1 h ▸ hdigit n hn
    · next hn =>
      rcases List.mem_append.1 h with h | h
      · exact ih (n / 16) (Nat.div_lt_self (by omega) (by decide)) h
      · exact List.mem_singleton.1 h ▸ hdigit (n % 16) (Nat.mod_lt n (by decide))

theorem isPlain_of_mem_escape {c d : Char} (h : d ∈ escape c) : isPlain d = true := by
  have hpair {mark : Char} (hmark : isPlain mark = true) (h : d ∈ ['\\', mark]) :
      isPlain d = true := by
    rcases List.mem_cons.1 h with rfl | h
    · decide
    · exact List.mem_singleton.1 h ▸ hmark
  unfold escape at h
  iterate 6
    split at h
    · exact hpair (by decide) h
  split at h
  · next hplain => exact List.mem_singleton.1 h ▸ hplain
  · simp only [List.cons_append, List.mem_cons, List.mem_append, List.not_mem_nil, or_false] at h
    rcases h with rfl | rfl | rfl | h | rfl
    · decide
    · decide
    · decide
    · exact isPlain_of_mem_toDigits h
    · decide

/-- Of whatever text, nothing is shown that could not be seen. -/
theorem isPlain_of_mem_quoted {text : String} {c : Char} (h : c ∈ (quoted text).toList) :
    isPlain c = true := by
  rw [quoted, String.toList_ofList, List.mem_append, List.mem_cons, List.mem_flatMap,
    List.mem_singleton] at h
  rcases h with (rfl | ⟨d, -, h⟩) | rfl
  · decide
  · exact isPlain_of_mem_escape h
  · decide

example : quoted "it's \"q\"\x7f" = "\"it's \\\"q\\\"\\u\x7b7f\x7d\"" := by
  decide +kernel

end ScriptLexer.Text
