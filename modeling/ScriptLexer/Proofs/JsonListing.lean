import ScriptLexer.Listing
import ScriptLexer.Proofs.JsonReading

/-!
The JSON listing loses nothing. A token is read back field by field: its kind by its name,
the numbers by their digits, and a literal by the shape of its value, since only a literal
that is absent is written as null, only a text as a string, and only a floating-point
number with a point or an exponent.
-/

namespace ScriptLexer

namespace Json

def string? : Json → Option String
  | .string value => some value
  | _ => none

def number? : Json → Option Number.Written
  | .number written => Number.Written.ofText? written
  | _ => none

def natural? (v : Json) : Option Nat := do
  let w ← v.number?
  if w.isInteger then w.integer.toNat? else none

def field? (name : String) : Json → Option Json
  | .object members => members.lookup name
  | _ => none

def items? : Json → Option (List Json)
  | .array items => some items
  | _ => none

end Json

namespace Listing

/-! ### Reading a listing -/

/-- The literal that a value stands for; null stands for none. -/
def readLiteral? : Json → Option (Option Literal)
  | .null => some none
  | .string value => some (some (.text value))
  | .number written => do
    let w ← Number.Written.ofText? written
    if w.isInteger then some (some (.integer w.integer))
    else return some (.float (← w.float?))
  | _ => none

def readSpan? (v : Json) : Option Span := do
  let offset ← (← v.field? "offset").natural?
  let length ← (← v.field? "len").natural?
  return ⟨offset, length⟩

def readToken? (v : Json) : Option Token := do
  let kind ← Kind.ofName? (← (← v.field? "kind").string?)
  let lexeme ← (← v.field? "lexeme").string?
  let literal ← readLiteral? (← v.field? "literal")
  let line ← (← v.field? "line").natural?
  let span ← readSpan? (← v.field? "span")
  return ⟨kind, lexeme, literal, line, span⟩

def readTokens? : List Json → Option (List Token)
  | [] => some []
  | v :: values => do
    let token ← readToken? v
    let tokens ← readTokens? values
    return token :: tokens

def read? (listing : String) : Option (List Token) := do
  let v ← Json.read? listing.toList
  readTokens? (← v.items?)

/-! ### Values as they are written -/

/-- JSON has finite numbers only. -/
def IsFinite (literal : Option Literal) : Prop :=
  ∀ x, literal = some (.float x) → x.isFinite = true

def fieldJson (style : Number.Style) (literal : Option Literal) : Json :=
  (literal.map (literalJson style)).getD .null

theorem wellFormed_of_ofText? {text : List Char} {w : Number.Written}
    (h : Number.Written.ofText? text = some w) : (Json.number text).WellFormed := by
  obtain ⟨hw, rfl⟩ := Number.Written.ofText?_eq_some_iff.1 h
  exact .number hw

theorem wellFormed_numeralOf (i : Int) : (Json.number (Number.numeralOf i)).WellFormed := by
  obtain ⟨w, hw, -⟩ := Number.ofText?_numeralOf i
  exact wellFormed_of_ofText? hw

theorem wellFormed_fieldJson (style : Number.Style) {literal : Option Literal}
    (h : IsFinite literal) : (fieldJson style literal).WellFormed := by
  cases literal with
  | none => exact .null
  | some value =>
      cases value with
      | text => exact .string
      | integer value => exact wellFormed_numeralOf value
      | float x =>
          obtain ⟨w, hw, -⟩ := style.ofText?_write (h x rfl)
          show (if x.isFinite then Json.number (style.write x) else .null).WellFormed
          rw [if_pos (h x rfl)]
          exact wellFormed_of_ofText? hw

theorem readLiteral?_fieldJson (style : Number.Style) {literal : Option Literal}
    (h : IsFinite literal) : readLiteral? (fieldJson style literal) = some literal := by
  cases literal with
  | none => rfl
  | some value =>
      cases value with
      | text => rfl
      | integer value =>
          -- A numeral has no point, so it is read as no floating-point number.
          obtain ⟨w, hw, hinteger, rfl⟩ := Number.ofText?_numeralOf value
          show readLiteral? (.number (Number.numeralOf w.integer)) = _
          simp [readLiteral?, hw, hinteger]
      | float x =>
          obtain ⟨w, hw, hinteger, hx⟩ := style.ofText?_write (h x rfl)
          show readLiteral? (if x.isFinite then Json.number (style.write x) else .null) = _
          rw [if_pos (h x rfl)]
          simp [readLiteral?, hw, hinteger, hx]

theorem natural?_digitsOf (n : Nat) : (Json.number (Number.digitsOf n)).natural? = some n := by
  obtain ⟨w, hw, hinteger, hvalue⟩ := Number.ofText?_numeralOf n
  have hnumber : (Json.number (Number.digitsOf n)).number? = some w := hw
  rw [Json.natural?, hnumber, Option.bind_eq_bind, Option.bind_some, if_pos hinteger, hvalue]
  rfl

/-! ### Tokens -/

def spanJson (span : Span) : Json :=
  .object [
    ("offset", .number (Number.digitsOf span.offset)),
    ("len", .number (Number.digitsOf span.length))]

theorem tokenJson_eq (style : Number.Style) (token : Token) :
    tokenJson style token = .object [
      ("kind", .string token.kind.name),
      ("lexeme", .string token.lexeme),
      ("literal", fieldJson style token.literal),
      ("line", .number (Number.digitsOf token.line)),
      ("span", spanJson token.span)] :=
  rfl

theorem wellFormed_tokenJson (style : Number.Style) {token : Token}
    (h : IsFinite token.literal) : (tokenJson style token).WellFormed := by
  have hnumber (n : Nat) : (Json.number (Number.digitsOf n)).WellFormed := wellFormed_numeralOf n
  have hspan : (spanJson token.span).WellFormed := by
    refine .object ?_
    simp [hnumber]
  rw [tokenJson_eq]
  refine .object ?_
  simp [Json.WellFormed.string, wellFormed_fieldJson style h, hnumber, hspan]

theorem readSpan?_spanJson (span : Span) : readSpan? (spanJson span) = some span := by
  have hoffset : (spanJson span).field? "offset" = some (.number (Number.digitsOf span.offset)) :=
    rfl
  have hlength : (spanJson span).field? "len" = some (.number (Number.digitsOf span.length)) :=
    rfl
  simp [readSpan?, hoffset, hlength, natural?_digitsOf]

theorem readToken?_tokenJson (style : Number.Style) {token : Token}
    (h : IsFinite token.literal) : readToken? (tokenJson style token) = some token := by
  let v := tokenJson style token
  have hkind : v.field? "kind" = some (.string token.kind.name) := rfl
  have hlexeme : v.field? "lexeme" = some (.string token.lexeme) := rfl
  have hliteral : v.field? "literal" = some (fieldJson style token.literal) := rfl
  have hline : v.field? "line" = some (.number (Number.digitsOf token.line)) := rfl
  have hspan : v.field? "span" = some (spanJson token.span) := rfl
  show readToken? v = some token
  simp [readToken?, hkind, hlexeme, hliteral, hline, hspan, Json.string?, Kind.ofName?_name,
    readLiteral?_fieldJson style h, natural?_digitsOf, readSpan?_spanJson]

theorem readTokens?_map_tokenJson (style : Number.Style) {tokens : List Token}
    (h : ∀ t ∈ tokens, IsFinite t.literal) :
    readTokens? (tokens.map (tokenJson style)) = some tokens := by
  induction tokens with
  | nil => rfl
  | cons token tokens ih =>
      obtain ⟨htoken, htokens⟩ := List.forall_mem_cons.1 h
      simp [readTokens?, readToken?_tokenJson style htoken, ih htokens]

/-! ### The listing -/

def listingJson (style : Number.Style) (tokens : List Token) : Json :=
  .array (tokens.map (tokenJson style))

theorem wellFormed_listingJson (style : Number.Style) {tokens : List Token}
    (h : ∀ t ∈ tokens, IsFinite t.literal) : (listingJson style tokens).WellFormed := by
  refine .array ?_
  intro v hv
  obtain ⟨token, htoken, rfl⟩ := List.mem_map.1 hv
  exact wellFormed_tokenJson style (h token htoken)

theorem render_json (style : Number.Style) (tokens : List Token) :
    (render style .json tokens).toList = (listingJson style tokens).pretty 0 ++ ['\n'] :=
  String.toList_ofList

theorem exists_pretty_array (depth : Nat) (items : List Json) :
    ∃ inner, (Json.array items).pretty depth = '[' :: inner ++ [']'] := by
  cases items with
  | nil => exact ⟨[], rfl⟩
  | cons item items =>
      refine ⟨Json.writeItem (depth + 1) item ++
        (items.flatMap (fun item => ',' :: Json.writeItem (depth + 1) item)
          ++ Json.lineAt depth), ?_⟩
      rw [Json.pretty_array]
      simp only [List.cons_append, List.append_assoc]

theorem read?_render (style : Number.Style) {tokens : List Token}
    (h : ∀ t ∈ tokens, IsFinite t.literal) : read? (render style .json tokens) = some tokens := by
  have hjson := (wellFormed_listingJson style h).read?_pretty 0 ['\n'] (List.all_eq_true.1 rfl)
  rw [read?, render_json, hjson]
  exact readTokens?_map_tokenJson style h

/-- What the JSON listing of tokens keeps, with values in any style. -/
structure Lossless (style : Number.Style) (tokens : List Token) : Prop where
  /-- The listing is the text of an array in brackets, and one line feed. -/
  array : ∃ inner, (render style .json tokens).toList = '[' :: inner ++ [']', '\n'] ∧
    Json.Denotes ('[' :: inner ++ [']']) (listingJson style tokens) []
  readsBack : read? (render style .json tokens) = some tokens
  only : ∀ others : List Token, (∀ t ∈ others, IsFinite t.literal) →
    render style .json others = render style .json tokens → others = tokens
  /-- The literal of a token, there or absent, is written as no other literal is. -/
  literal : ∀ t ∈ tokens, ∀ depth other, IsFinite other →
    (fieldJson style other).pretty depth = (fieldJson style t.literal).pretty depth →
      other = t.literal

theorem fieldJson_pretty_injective (style : Number.Style) {first second : Option Literal}
    (hfirst : IsFinite first) (hsecond : IsFinite second) {depth : Nat}
    (h : (fieldJson style first).pretty depth = (fieldJson style second).pretty depth) :
    first = second := by
  have hread : some (fieldJson style first) = some (fieldJson style second) := by
    rw [← (wellFormed_fieldJson style hfirst).read?_pretty depth [] (by simp), h,
      (wellFormed_fieldJson style hsecond).read?_pretty depth [] (by simp)]
  have hliteral := readLiteral?_fieldJson style hfirst
  rw [Option.some.inj hread, readLiteral?_fieldJson style hsecond] at hliteral
  exact (Option.some.inj hliteral).symm

/-- The JSON listing of any tokens keeps everything, if their floating-point literals are
finite: the values come back bit for bit, in whatever style they are written. -/
theorem render_lossless (style : Number.Style) (tokens : List Token)
    (h : ∀ t ∈ tokens, IsFinite t.literal) : Lossless style tokens where
  array := by
    obtain ⟨inner, hinner⟩ := exists_pretty_array 0 (tokens.map (tokenJson style))
    refine ⟨inner, ?_, ?_⟩
    · rw [render_json, listingJson, hinner]
      simp
    · refine Json.denotes_of_read? ?_
      have hread := (wellFormed_listingJson style h).read?_pretty 0 [] (by simp)
      rw [listingJson, hinner, List.append_nil] at hread
      exact hread
  readsBack := read?_render style h
  only others hothers heq := by
    have hread := read?_render style hothers
    rw [heq, read?_render style h] at hread
    exact (Option.some.inj hread).symm
  literal t ht depth other hother heq := fieldJson_pretty_injective style hother (h t ht) heq

/-- A lexeme of control characters and quotes, and literals that look alike: a negative
zero, the integer zero, and a text that spells null. -/
theorem render_lossless_zeros :
    let tokens : List Token :=
      [⟨.string, "\"\x00\n\\", some (.text "null"), 1, ⟨0, 4⟩⟩,
       ⟨.number, "0.0", some (.float ⟨0x8000000000000000⟩), 2, ⟨5, 3⟩⟩,
       ⟨.integerNumber, "0", some (.integer 0), 2, ⟨9, 1⟩⟩,
       ⟨.endOfText, "", none, 2, ⟨10, 0⟩⟩]
    (∀ t ∈ tokens, IsFinite t.literal) ∧ Lossless jsonStyle tokens := by
  intro tokens
  have h : ∀ t ∈ tokens, IsFinite t.literal := by
    intro t ht x hx
    simp only [tokens, List.mem_cons, List.not_mem_nil, or_false] at ht
    rcases ht with rfl | rfl | rfl | rfl
    · cases hx
    · cases hx
      decide
    · cases hx
    · cases hx
  exact ⟨h, render_lossless jsonStyle tokens h⟩

end Listing

end ScriptLexer
