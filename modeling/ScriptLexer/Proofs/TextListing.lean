import ScriptLexer.Listing
import ScriptLexer.Proofs.Juxtaposition

/-!
The text listing of a scan can be read in one way only. It escapes nothing, so this is not
true of tokens at large, but of those that a scan yields. Read from the front, a line of it
settles one thing after another: the name of the kind ends at the first space; only a string
has apostrophes in its lexeme, and a string ends at its own quote; the lexeme then says what
the literal is, and the line number ends at the line feed. What a string holds, be it quotes
or whole lines of a listing, lies between quotes that have been found already.
-/

namespace ScriptLexer

theorem Text.append_cons_inj {mark : Char} {first second rest rest' : List Char}
    (hfirst : mark ∉ first) (hsecond : mark ∉ second)
    (h : first ++ mark :: rest = second ++ mark :: rest') : first = second ∧ rest = rest' := by
  rcases append_eq_append_cases h with ⟨inner, rfl, hrest⟩ | ⟨c, inner, rfl, hrest⟩
  · cases inner with
    | nil => exact ⟨(List.append_nil _).symm, (List.cons.inj hrest).2⟩
    | cons c inner =>
        obtain rfl := (List.cons.inj hrest).1
        simp at hsecond
  · obtain rfl := (List.cons.inj hrest).1
    simp at hfirst

namespace Listing

def entry (t : Token) : Kind × String × Option Literal × Nat :=
  (t.kind, t.lexeme, t.literal, t.line)

/-- The tokens of scans: lexemes, and marks of the end. -/
inductive Scanned (t : Token) : Prop
  | proper (h : Lexeme t.lexeme.toList (.token t.kind t.literal))
  | last (hkind : t.kind = .endOfText) (hlexeme : t.lexeme = "") (hliteral : t.literal = none)

theorem scanned_of_mem {source : String} {t : Token} (h : t ∈ (scan source).tokens) :
    Scanned t := by
  rcases List.mem_append.1 h with h | h
  · exact .proper (Scan.lexeme_of_mem_properTokens h)
  · rw [List.mem_singleton.1 h]
    exact .last rfl rfl rfl

/-- A string stands between quotes of one sort, and other lexemes hold no apostrophe. -/
theorem apostrophe_cases {text : List Char} {kind : Kind} {literal : Option Literal}
    (h : Lexeme text (.token kind literal)) :
    (kind ≠ .string ∧ '\'' ∉ text) ∨
      (kind = .string ∧ ∃ quote body, quote ∉ body ∧ text = quote :: (body ++ [quote])) := by
  have hpunctuation : Lexeme.punctuation.all (fun p => p.1 != .string && p.2 != '\'') = true := by
    decide
  have hmark {kind : Kind} {c : Char} (hmem : (kind, c) ∈ Lexeme.punctuation) :
      kind ≠ .string ∧ '\'' ≠ c := by
    have hp := List.all_eq_true.1 hpunctuation _ hmem
    rw [Bool.and_eq_true, bne_iff_ne, bne_iff_ne] at hp
    exact ⟨hp.1, hp.2.symm⟩
  have hdigits {digits : List Char} (hdigits : Lexeme.Digits digits) : '\'' ∉ digits :=
    fun hmem => absurd (hdigits.2 _ hmem) (by decide)
  cases h with
  | mark hc hkind =>
      obtain ⟨hstring, hne⟩ := hmark (Lexeme.mem_punctuation_of_mark hc hkind)
      exact .inl ⟨hstring, by simpa using hne⟩
  | operator hc hpair =>
      obtain ⟨hstring, hne⟩ := hmark (Lexeme.mem_punctuation_of_operator hc hpair).1
      exact .inl ⟨hstring, by simpa using hne⟩
  | operatorEqual hc hpair =>
      obtain ⟨hstring, hne⟩ := hmark (Lexeme.mem_punctuation_of_operator hc hpair).2
      exact .inl ⟨hstring, by simpa using hne⟩
  | slash => exact .inl ⟨by decide, by decide⟩
  | string _ hbody => exact .inr ⟨rfl, _, _, hbody, rfl⟩
  | integer h => exact .inl ⟨by decide, hdigits h⟩
  | decimal hwhole hfraction => exact .inl ⟨by decide, by simp [hdigits hwhole, hdigits hfraction]⟩
  | @word first more hfirst hmore =>
      refine .inl ⟨?_, ?_⟩
      · intro hkind
        have hword := Lexeme.isWord_wordKind (String.ofList (first :: more))
        rw [hkind] at hword
        contradiction
      · intro hmem
        rcases List.mem_cons.1 hmem with rfl | hmem
        · exact absurd hfirst (by decide)
        · exact absurd (hmore _ hmem) (by decide)

/-! ### Reading a line from the front -/

def literalPart : Option Literal → List Char
  | some value => ' ' :: literalText value
  | none => []

theorem tokenText_append (t : Token) (rest : List Char) :
    tokenText t ++ '\n' :: rest =
      t.kind.name.toList ++ ' ' :: '\'' :: (t.lexeme.toList ++ '\'' :: (literalPart t.literal ++
        (" line ".toList ++ (Number.digitsOf t.line ++ '\n' :: rest)))) := by
  cases hliteral : t.literal <;> simp [tokenText, literalPart, hliteral]

theorem space_not_mem_name (kind : Kind) : ' ' ∉ kind.name.toList := by
  have hall : Kind.all.all (fun kind => !kind.name.toList.contains ' ') = true := by
    decide +kernel
  simpa using List.all_eq_true.1 hall kind (Kind.mem_all kind)

theorem lineFeed_not_mem_digitsOf (n : Nat) : '\n' ∉ Number.digitsOf n :=
  fun hmem => absurd (Number.isDigit_of_mem_digitsOf _ hmem) (by decide)

section

variable {t t' : Token} (ht : Scanned t) (ht' : Scanned t')

include ht ht'

theorem lexeme_eq (hkind : t.kind = t'.kind) {rest rest' : List Char}
    (h : t.lexeme.toList ++ '\'' :: rest = t'.lexeme.toList ++ '\'' :: rest') :
    t.lexeme = t'.lexeme ∧ rest = rest' := by
  have hcases {t : Token} (ht : Scanned t) :
      (t.kind ≠ .string ∧ '\'' ∉ t.lexeme.toList) ∨ (t.kind = .string ∧
        ∃ quote body, quote ∉ body ∧ t.lexeme.toList = quote :: (body ++ [quote])) := by
    cases ht with
    | proper hlexeme => exact apostrophe_cases hlexeme
    | last hkind hlexeme => exact .inl (by simp [hkind, hlexeme])
  rcases hcases ht with ⟨hother, hfree⟩ | ⟨hstring, quote, body, hbody, hlexeme⟩ <;>
    rcases hcases ht' with ⟨hother', hfree'⟩ | ⟨hstring', quote', body', hbody', hlexeme'⟩
  · obtain ⟨hlists, hrest⟩ := Text.append_cons_inj hfree hfree' h
    exact ⟨String.toList_injective hlists, hrest⟩
  -- Tokens of one kind are both strings, or neither is.
  · exact absurd (hkind.trans hstring') hother
  · exact absurd (hkind.symm.trans hstring) hother'
  · rw [hlexeme, hlexeme'] at h
    rw [List.cons_append, List.cons_append, List.append_assoc, List.append_assoc] at h
    obtain ⟨rfl, hmore⟩ := List.cons.inj h
    obtain ⟨rfl, hrest⟩ := Text.append_cons_inj hbody hbody' hmore
    exact ⟨String.toList_injective (hlexeme.trans hlexeme'.symm), (List.cons.inj hrest).2⟩

theorem literal_eq (hkind : t.kind = t'.kind) (hlexeme : t.lexeme = t'.lexeme) :
    t.literal = t'.literal := by
  cases ht with
  | proper h =>
      cases ht' with
      | proper h' =>
          rw [hlexeme] at h
          exact (Reading.token.inj (h'.unique h)).2
      | last hlast => exact absurd (hkind.trans hlast) (Scan.kind_ne_endOfText h)
  | last hlast _ hliteral =>
      cases ht' with
      | proper h' => exact absurd (hkind.symm.trans hlast) (Scan.kind_ne_endOfText h')
      | last _ _ hliteral' => rw [hliteral, hliteral']

theorem entry_eq {rest rest' : List Char}
    (h : tokenText t ++ '\n' :: rest = tokenText t' ++ '\n' :: rest') :
    entry t = entry t' ∧ rest = rest' := by
  rw [tokenText_append, tokenText_append] at h
  obtain ⟨hname, hbehind⟩ := Text.append_cons_inj (space_not_mem_name _) (space_not_mem_name _) h
  have hkind := Kind.name_injective (String.toList_injective hname)
  obtain ⟨hlexeme, hbehind⟩ := lexeme_eq ht ht' hkind (List.cons.inj hbehind).2
  have hliteral := literal_eq ht ht' hkind hlexeme
  rw [hliteral] at hbehind
  have hnumber := List.append_cancel_left (List.append_cancel_left hbehind)
  obtain ⟨hdigits, hrest⟩ := Text.append_cons_inj (lineFeed_not_mem_digitsOf _)
    (lineFeed_not_mem_digitsOf _) hnumber
  have hline := congrArg Number.valueOfDigits hdigits
  rw [Number.valueOfDigits_digitsOf, Number.valueOfDigits_digitsOf] at hline
  exact ⟨by simp [entry, hkind, hlexeme, hliteral, hline], hrest⟩

end

theorem map_entry_eq {style : Number.Style} {ts ts' : List Token} (hts : ∀ t ∈ ts, Scanned t)
    (hts' : ∀ t ∈ ts', Scanned t) (h : characters style .text ts = characters style .text ts') :
    ts.map entry = ts'.map entry := by
  induction ts generalizing ts' with
  | nil =>
      cases ts' with
      | nil => rfl
      | cons => simp [characters] at h
  | cons t ts ih =>
      cases ts' with
      | nil => simp [characters] at h
      | cons t' ts' =>
          obtain ⟨ht, hts⟩ := List.forall_mem_cons.1 hts
          obtain ⟨ht', hts'⟩ := List.forall_mem_cons.1 hts'
          simp only [characters, List.flatMap_cons, List.append_assoc, List.singleton_append] at h
          obtain ⟨hentry, hrest⟩ := entry_eq ht ht' h
          rw [List.map_cons, List.map_cons, hentry, ih hts hts' hrest]

/-- Scans with equal listings have equal tokens, line for line, though perhaps not in the
same places. -/
theorem entries_eq_of_render_eq {style : Number.Style} {first second : String}
    (h : render style .text (scan first).tokens = render style .text (scan second).tokens) :
    (scan first).tokens.map entry = (scan second).tokens.map entry :=
  map_entry_eq (fun _ => scanned_of_mem) (fun _ => scanned_of_mem) (String.ofList_injective h)

/-- A string that imitates two lines of a listing, with and without a blank before it. -/
theorem entries_eq_imitation :
    let first := "\"' line 1\nEOF '' line 1\""
    let second := " \"' line 1\nEOF '' line 1\""
    render jsonStyle .text (scan first).tokens = render jsonStyle .text (scan second).tokens ∧
      (scan first).tokens.map entry = (scan second).tokens.map entry := by
  intro first second
  have h : render jsonStyle .text (scan first).tokens =
      render jsonStyle .text (scan second).tokens := by
    decide +kernel
  exact ⟨h, entries_eq_of_render_eq h⟩

end Listing

end ScriptLexer
