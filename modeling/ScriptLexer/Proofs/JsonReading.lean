import ScriptLexer.Json
import ScriptLexer.Proofs.WrittenNumber

/-!
Reading the text of JSON values back. The grammar is that of RFC 8259, as far as the
values have it: it relates a text to the value that it begins with and to the rest. A
reader takes a value off the front of a text. What it takes obeys the grammar, and from
an indented text it takes the value that was written: an escaped character is found again,
a number ends where no character of a number follows, and the marks between elements
stand outside of any string.
-/

namespace ScriptLexer.Json

/-! ### The grammar -/

def isSpace (c : Char) : Bool :=
  c == ' ' || c == '\t' || c == '\n' || c == '\r'

def escapes : List (Char × Char) :=
  [('"', '"'), ('\\', '\\'), ('/', '/'), ('b', '\x08'), ('f', '\x0C'), ('n', '\n'),
   ('r', '\r'), ('t', '\t')]

def hexValue? (c : Char) : Option Nat :=
  if c.isDigit then some (c.toNat - '0'.toNat)
  else if 'a' ≤ c ∧ c ≤ 'f' then some (c.toNat - 'a'.toNat + 10)
  else if 'A' ≤ c ∧ c ≤ 'F' then some (c.toNat - 'A'.toNat + 10)
  else none

def unit? (a b c d : Char) : Option Nat := do
  let a ← hexValue? a
  let b ← hexValue? b
  let c ← hexValue? c
  let d ← hexValue? d
  return ((a * 16 + b) * 16 + c) * 16 + d

/-- Two units that make up one character beyond the first 65536. -/
def IsPair (high low : Nat) : Prop :=
  (0xD800 ≤ high ∧ high < 0xDC00) ∧ (0xDC00 ≤ low ∧ low < 0xE000)

instance (high low : Nat) : Decidable (IsPair high low) :=
  inferInstanceAs (Decidable (_ ∧ _))

def ofPair (high low : Nat) : Char :=
  Char.ofNat (0x10000 + (high - 0xD800) * 0x400 + (low - 0xDC00))

inductive Space : List Char → List Char → Prop
  | done {rest : List Char} : Space rest rest
  | skip {c : Char} {text rest : List Char} (hc : isSpace c = true) (h : Space text rest) :
      Space (c :: text) rest

inductive Spells : List Char → Char → List Char → Prop
  | plain {c : Char} {rest : List Char} (hcontrol : 0x20 ≤ c.toNat) (hquote : c ≠ '"')
      (hescape : c ≠ '\\') : Spells (c :: rest) c rest
  | short {mark c : Char} {rest : List Char} (h : (mark, c) ∈ escapes) :
      Spells ('\\' :: mark :: rest) c rest
  | unit {a b c d : Char} {unit : Nat} {rest : List Char} (h : unit? a b c d = some unit)
      (hvalid : unit.isValidChar) :
      Spells ('\\' :: 'u' :: a :: b :: c :: d :: rest) (Char.ofNat unit) rest
  | pair {a b c d a' b' c' d' : Char} {high low : Nat} {rest : List Char}
      (hhigh : unit? a b c d = some high) (hlow : unit? a' b' c' d' = some low)
      (h : IsPair high low) :
      Spells ('\\' :: 'u' :: a :: b :: c :: d :: '\\' :: 'u' :: a' :: b' :: c' :: d' :: rest)
        (ofPair high low) rest

inductive SpellsAll : List Char → List Char → List Char → Prop
  | nil {rest : List Char} : SpellsAll ('"' :: rest) [] rest
  | cons {text more rest value : List Char} {c : Char} (h : Spells text c more)
      (hs : SpellsAll more value rest) : SpellsAll text (c :: value) rest

/-- Elements with commas between them, and a mark behind the last. -/
inductive Elements {α : Type} (Element : List Char → α → List Char → Prop) (close : Char) :
    List Char → List α → List Char → Prop
  | last {text rest : List Char} {x : α} (h : Element text x (close :: rest)) :
      Elements Element close text [x] rest
  | cons {text more rest : List Char} {x : α} {xs : List α} (h : Element text x (',' :: more))
      (hs : Elements Element close more xs rest) : Elements Element close text (x :: xs) rest

mutual

/-- `Denotes text value rest` says that `text` begins with the text of a value and goes on
with `rest`. -/
inductive Denotes : List Char → Json → List Char → Prop
  | null {rest : List Char} : Denotes ('n' :: 'u' :: 'l' :: 'l' :: rest) .null rest
  | number {w : Number.Written} {rest : List Char} (h : w.WellFormed) :
      Denotes (w.text ++ rest) (.number w.text) rest
  | string {text value rest : List Char} (h : SpellsAll text value rest) :
      Denotes ('"' :: text) (.string (String.ofList value)) rest
  | emptyArray {text rest : List Char} (h : Space text (']' :: rest)) :
      Denotes ('[' :: text) (.array []) rest
  | array {text rest : List Char} {items : List Json} (h : Elements Denotes ']' text items rest) :
      Denotes ('[' :: text) (.array items) rest
  | emptyObject {text rest : List Char} (h : Space text ('\x7d' :: rest)) :
      Denotes ('\x7b' :: text) (.object []) rest
  | object {text rest : List Char} {members : List (String × Json)}
      (h : Elements DenotesMember '\x7d' text members rest) :
      Denotes ('\x7b' :: text) (.object members) rest
  | spaced {text inner more rest : List Char} {value : Json} (hbefore : Space text inner)
      (h : Denotes inner value more) (hafter : Space more rest) : Denotes text value rest

inductive DenotesMember : List Char → String × Json → List Char → Prop
  | mk {text body behind more rest name : List Char} {value : Json}
      (hbefore : Space text ('"' :: body)) (hname : SpellsAll body name behind)
      (hafter : Space behind (':' :: more)) (hvalue : Denotes more value rest) :
      DenotesMember text (String.ofList name, value) rest

end

/-! ### The reader -/

def skipSpace (text : List Char) : List Char :=
  text.dropWhile isSpace

def readLow? (high : Nat) : List Char → Option (Char × List Char)
  | '\\' :: 'u' :: a :: b :: c :: d :: rest =>
    match unit? a b c d with
    | some low => if IsPair high low then some (ofPair high low, rest) else none
    | none => none
  | _ => none

def readEscape? : List Char → Option (Char × List Char)
  | [] => none
  | 'u' :: a :: b :: c :: d :: rest =>
    match unit? a b c d with
    -- A unit that is no character can only be the first half of a pair.
    | some unit => if unit.isValidChar then some (Char.ofNat unit, rest) else readLow? unit rest
    | none => none
  | mark :: rest => (escapes.lookup mark).map fun c => (c, rest)

def readChar? : List Char → Option (Char × List Char)
  | [] => none
  | c :: rest =>
    if c = '\\' then readEscape? rest
    else if c = '"' ∨ c.toNat < 0x20 then none
    else some (c, rest)

def readChars : Nat → List Char → Option (List Char × List Char)
  | 0, _ => none
  | fuel + 1, text =>
    if text.head? = some '"' then some ([], text.tail)
    else
      match readChar? text with
      | some (c, rest) => (readChars fuel rest).map fun (value, rest) => (c :: value, rest)
      | none => none

def isNumberPart (c : Char) : Bool :=
  c.isDigit || c == '-' || c == '+' || c == '.' || c == 'e' || c == 'E'

def readNumber (text : List Char) : Option (Json × List Char) :=
  let run := text.takeWhile isNumberPart
  (Number.Written.ofText? run).map fun _ => (.number run, text.dropWhile isNumberPart)

def readElements {α : Type} (element : List Char → Option (α × List Char)) (close : Char) :
    Nat → List Char → Option (List α × List Char)
  | 0, _ => none
  | fuel + 1, text =>
    match element text with
    | some (x, c :: rest) =>
      if c = ',' then (readElements element close fuel rest).map fun (xs, rest) => (x :: xs, rest)
      else if c = close then some ([x], rest)
      else none
    | _ => none

def readBracketed {α : Type} (element : List Char → Option (α × List Char)) (close : Char)
    (fuel : Nat) (text : List Char) : Option (List α × List Char) :=
  if (skipSpace text).head? = some close then some ([], (skipSpace text).tail)
  else readElements element close fuel text

def readMember (value : List Char → Option (Json × List Char)) (fuel : Nat) (text : List Char) :
    Option ((String × Json) × List Char) :=
  if (skipSpace text).head? = some '"' then
    match readChars fuel (skipSpace text).tail with
    | some (name, rest) =>
      if (skipSpace rest).head? = some ':' then
        (value (skipSpace rest).tail).map fun (v, rest) => ((String.ofList name, v), rest)
      else none
    | none => none
  else none

def readBare (value : List Char → Option (Json × List Char)) (fuel : Nat) :
    List Char → Option (Json × List Char)
  | [] => none
  | c :: rest =>
    if c = '"' then
      (readChars fuel rest).map fun (value, rest) => (.string (String.ofList value), rest)
    else if c = '[' then
      (readBracketed value ']' fuel rest).map fun (items, rest) => (.array items, rest)
    else if c = '\x7b' then
      (readBracketed (readMember value fuel) '\x7d' fuel rest).map
        fun (members, rest) => (.object members, rest)
    else if c = 'n' then
      if rest.take 3 = ['u', 'l', 'l'] then some (.null, rest.drop 3) else none
    else readNumber (c :: rest)

/-- Reads a value and the spaces around it. The fuel bounds how deep values are nested and
how many characters and elements they have, so the length of the text is enough. -/
def readValue : Nat → List Char → Option (Json × List Char)
  | 0, _ => none
  | fuel + 1, text =>
    (readBare (readValue fuel) fuel (skipSpace text)).map fun (v, rest) => (v, skipSpace rest)

def read? (text : List Char) : Option Json :=
  match readValue text.length text with
  | some (value, []) => some value
  | _ => none

/-! ### What the reader takes obeys the grammar -/

theorem space_skipSpace (text : List Char) : Space text (skipSpace text) := by
  induction text with
  | nil => exact .done
  | cons c text ih =>
      unfold skipSpace at ih ⊢
      rw [List.dropWhile_cons]
      split
      · next hc => exact .skip hc ih
      · exact .done

theorem mem_of_lookup {mark c : Char} (h : escapes.lookup mark = some c) :
    (mark, c) ∈ escapes := by
  obtain ⟨before, after, heq, -⟩ := List.lookup_eq_some_iff.1 h
  rw [heq]
  simp

theorem spells_of_readLow? {high : Nat} {a b c d x : Char} {text rest : List Char}
    (hhigh : unit? a b c d = some high) (h : readLow? high text = some (x, rest)) :
    Spells ('\\' :: 'u' :: a :: b :: c :: d :: text) x rest := by
  unfold readLow? at h
  split at h
  · split at h
    · next low hlow =>
      split at h
      · next hpair =>
        obtain ⟨rfl, rfl⟩ := Prod.mk.inj (Option.some.inj h)
        exact .pair hhigh hlow hpair
      · contradiction
    · contradiction
  · contradiction

theorem spells_of_readEscape? {text rest : List Char} {x : Char}
    (h : readEscape? text = some (x, rest)) : Spells ('\\' :: text) x rest := by
  unfold readEscape? at h
  split at h
  · contradiction
  · split at h
    · next unit hunit =>
      split at h
      · next hvalid =>
        obtain ⟨rfl, rfl⟩ := Prod.mk.inj (Option.some.inj h)
        exact .unit hunit hvalid
      · exact spells_of_readLow? hunit h
    · contradiction
  · obtain ⟨c, hc, hpair⟩ := Option.map_eq_some_iff.1 h
    obtain ⟨rfl, rfl⟩ := Prod.mk.inj hpair
    exact .short (mem_of_lookup hc)

theorem spells_of_readChar? {text rest : List Char} {x : Char}
    (h : readChar? text = some (x, rest)) : Spells text x rest := by
  unfold readChar? at h
  split at h
  · contradiction
  · next c more =>
    split at h
    · next hc =>
      subst hc
      exact spells_of_readEscape? h
    · next hescape =>
      split at h
      · contradiction
      · next hplain =>
        obtain ⟨rfl, rfl⟩ := Prod.mk.inj (Option.some.inj h)
        obtain ⟨hquote, hcontrol⟩ := not_or.1 hplain
        exact .plain (Nat.le_of_not_lt hcontrol) hquote hescape

theorem spellsAll_of_readChars {fuel : Nat} {text value rest : List Char}
    (h : readChars fuel text = some (value, rest)) : SpellsAll text value rest := by
  induction fuel generalizing text value with
  | zero => contradiction
  | succ fuel ih =>
      rw [readChars] at h
      split at h
      · next hquote =>
        obtain ⟨rest, rfl⟩ := List.head?_eq_some_iff.1 hquote
        obtain ⟨rfl, rfl⟩ := Prod.mk.inj (Option.some.inj h)
        exact .nil
      · split at h
        · next c more hchar =>
          obtain ⟨⟨value, rest⟩, hmore, hpair⟩ := Option.map_eq_some_iff.1 h
          obtain ⟨rfl, rfl⟩ := Prod.mk.inj hpair
          exact .cons (spells_of_readChar? hchar) (ih hmore)
        · contradiction

theorem denotes_of_readNumber {text rest : List Char} {value : Json}
    (h : readNumber text = some (value, rest)) : Denotes text value rest := by
  obtain ⟨w, hw, hpair⟩ := Option.map_eq_some_iff.1 h
  obtain ⟨rfl, rfl⟩ := Prod.mk.inj hpair
  obtain ⟨hform, htext⟩ := Number.Written.ofText?_eq_some_iff.1 hw
  have hdenotes : Denotes (w.text ++ text.dropWhile isNumberPart) (.number w.text)
      (text.dropWhile isNumberPart) := .number hform
  rw [htext, List.takeWhile_append_dropWhile] at hdenotes
  exact hdenotes

section

variable {α : Type} {element : List Char → Option (α × List Char)}
  {Element : List Char → α → List Char → Prop}
  (helement : ∀ text x rest, element text = some (x, rest) → Element text x rest)
  {close : Char} {fuel : Nat} {text rest : List Char} {xs : List α}

include helement

theorem elements_of_readElements (h : readElements element close fuel text = some (xs, rest)) :
    Elements Element close text xs rest := by
  induction fuel generalizing text xs with
  | zero => contradiction
  | succ fuel ih =>
      rw [readElements] at h
      split at h
      · next x c more hx =>
        split at h
        · next hc =>
          subst hc
          obtain ⟨⟨xs, rest⟩, hmore, hpair⟩ := Option.map_eq_some_iff.1 h
          obtain ⟨rfl, rfl⟩ := Prod.mk.inj hpair
          exact .cons (helement _ _ _ hx) (ih hmore)
        · split at h
          · next hc =>
            subst hc
            obtain ⟨rfl, rfl⟩ := Prod.mk.inj (Option.some.inj h)
            exact .last (helement _ _ _ hx)
          · contradiction
      · contradiction

theorem of_readBracketed (h : readBracketed element close fuel text = some (xs, rest)) :
    (xs = [] ∧ Space text (close :: rest)) ∨ Elements Element close text xs rest := by
  unfold readBracketed at h
  split at h
  · next hclose =>
    obtain ⟨more, hmore⟩ := List.head?_eq_some_iff.1 hclose
    rw [hmore] at h
    obtain ⟨rfl, rfl⟩ := Prod.mk.inj (Option.some.inj h)
    exact .inl ⟨rfl, hmore ▸ space_skipSpace text⟩
  · exact .inr (elements_of_readElements helement h)

end

section

variable {value : List Char → Option (Json × List Char)}
  (hvalue : ∀ text v rest, value text = some (v, rest) → Denotes text v rest) {fuel : Nat}

include hvalue

theorem denotesMember_of_readMember (text : List Char) (member : String × Json)
    (rest : List Char) (h : readMember value fuel text = some (member, rest)) :
    DenotesMember text member rest := by
  have hbefore := space_skipSpace text
  unfold readMember at h
  split at h
  · next hquote =>
    obtain ⟨body, hbody⟩ := List.head?_eq_some_iff.1 hquote
    rw [hbody] at h hbefore
    split at h
    · next name behind hname =>
      have hafter := space_skipSpace behind
      split at h
      · next hcolon =>
        obtain ⟨more, hmore⟩ := List.head?_eq_some_iff.1 hcolon
        rw [hmore] at h hafter
        obtain ⟨⟨v, rest⟩, hv, hpair⟩ := Option.map_eq_some_iff.1 h
        obtain ⟨rfl, rfl⟩ := Prod.mk.inj hpair
        exact .mk hbefore (spellsAll_of_readChars hname) hafter (hvalue _ _ _ hv)
      · contradiction
    · contradiction
  · contradiction

theorem denotes_of_readBare {text rest : List Char} {v : Json}
    (h : readBare value fuel text = some (v, rest)) : Denotes text v rest := by
  unfold readBare at h
  split at h
  · contradiction
  · next c more =>
    split at h
    · next hc =>
      subst hc
      obtain ⟨⟨body, rest⟩, hbody, hpair⟩ := Option.map_eq_some_iff.1 h
      obtain ⟨rfl, rfl⟩ := Prod.mk.inj hpair
      exact .string (spellsAll_of_readChars hbody)
    split at h
    · next hc =>
      subst hc
      obtain ⟨⟨items, rest⟩, hitems, hpair⟩ := Option.map_eq_some_iff.1 h
      obtain ⟨rfl, rfl⟩ := Prod.mk.inj hpair
      rcases of_readBracketed hvalue hitems with ⟨rfl, hspace⟩ | helements
      · exact .emptyArray hspace
      · exact .array helements
    split at h
    · next hc =>
      subst hc
      obtain ⟨⟨members, rest⟩, hmembers, hpair⟩ := Option.map_eq_some_iff.1 h
      obtain ⟨rfl, rfl⟩ := Prod.mk.inj hpair
      rcases of_readBracketed (denotesMember_of_readMember hvalue) hmembers with
        ⟨rfl, hspace⟩ | helements
      · exact .emptyObject hspace
      · exact .object helements
    split at h
    · next hc =>
      subst hc
      split at h
      · next hnull =>
        obtain ⟨rfl, rfl⟩ := Prod.mk.inj (Option.some.inj h)
        rw [← List.take_append_drop 3 more, hnull]
        exact .null
      · contradiction
    · exact denotes_of_readNumber h

end

theorem denotes_of_readValue {fuel : Nat} {text rest : List Char} {v : Json}
    (h : readValue fuel text = some (v, rest)) : Denotes text v rest := by
  induction fuel generalizing text v rest with
  | zero => contradiction
  | succ fuel ih =>
      rw [readValue] at h
      obtain ⟨⟨v, more⟩, hbare, hpair⟩ := Option.map_eq_some_iff.1 h
      obtain ⟨rfl, rfl⟩ := Prod.mk.inj hpair
      have hvalue := denotes_of_readBare (fun _ _ _ => ih) hbare
      exact .spaced (space_skipSpace text) hvalue (space_skipSpace more)

theorem denotes_of_read? {text : List Char} {v : Json} (h : read? text = some v) :
    Denotes text v [] := by
  unfold read? at h
  split at h
  · next hv =>
    obtain rfl := Option.some.inj h
    exact denotes_of_readValue hv
  · contradiction

/-! ### What has been written is read back -/

theorem hexValue?_digitChar {n : Nat} (h : n < 16) : hexValue? (Nat.digitChar n) = some n := by
  have hall : ∀ n, n < 16 → hexValue? (Nat.digitChar n) = some n := by decide
  exact hall n h

theorem readEscape?_unit {c : Char} (h : c.toNat < 0x20) (rest : List Char) :
    readEscape? ('u' :: '0' :: '0' :: Nat.digitChar (c.toNat / 16) ::
      Nat.digitChar (c.toNat % 16) :: rest) = some (c, rest) := by
  have hunit : unit? '0' '0' (Nat.digitChar (c.toNat / 16)) (Nat.digitChar (c.toNat % 16)) =
      some c.toNat := by
    unfold unit?
    rw [hexValue?_digitChar (by omega), hexValue?_digitChar (by omega)]
    show some (((0 * 16 + 0) * 16 + c.toNat / 16) * 16 + c.toNat % 16) = some c.toNat
    rw [Option.some.injEq]
    omega
  rw [readEscape?, hunit]
  dsimp only
  rw [if_pos (.inl (by omega)), Char.ofNat_toNat]

theorem readEscape?_short {mark c : Char} (h : escapes.lookup mark = some c)
    (rest : List Char) : readEscape? (mark :: rest) = some (c, rest) := by
  have hmark : mark ≠ 'u' := by
    rintro rfl
    contradiction
  rw [readEscape?, h]
  · rfl
  · rintro a b d e more rfl
    exact absurd rfl hmark

theorem escape_cases (c : Char) :
    (∃ mark, escapes.lookup mark = some c ∧ escape c = ['\\', mark]) ∨
      (c.toNat < 0x20 ∧ escape c =
        ['\\', 'u', '0', '0', Nat.digitChar (c.toNat / 16), Nat.digitChar (c.toNat % 16)]) ∨
      (0x20 ≤ c.toNat ∧ c ≠ '"' ∧ c ≠ '\\' ∧ escape c = [c]) := by
  unfold escape
  split
  · next h => exact .inl ⟨'"', by rw [h]; rfl, rfl⟩
  next hquote =>
  split
  · next h => exact .inl ⟨'\\', by rw [h]; rfl, rfl⟩
  next hescape =>
  split
  · next h => exact .inl ⟨'b', h ▸ rfl, rfl⟩
  split
  · next h => exact .inl ⟨'f', h ▸ rfl, rfl⟩
  split
  · next h => exact .inl ⟨'n', h ▸ rfl, rfl⟩
  split
  · next h => exact .inl ⟨'r', h ▸ rfl, rfl⟩
  split
  · next h => exact .inl ⟨'t', h ▸ rfl, rfl⟩
  split
  · next h => exact .inr (.inl ⟨h, rfl⟩)
  · next h => exact .inr (.inr ⟨Nat.le_of_not_lt h, hquote, hescape, rfl⟩)

theorem readChar?_escape (c : Char) (rest : List Char) :
    readChar? (escape c ++ rest) = some (c, rest) := by
  rcases escape_cases c with ⟨mark, hmark, h⟩ | ⟨hcontrol, h⟩ | ⟨hcontrol, hquote, hescape, h⟩
  · rw [h]
    exact readEscape?_short hmark rest
  · rw [h]
    exact readEscape?_unit hcontrol rest
  · rw [h, List.singleton_append, readChar?, if_neg hescape, if_neg]
    exact not_or.2 ⟨hquote, Nat.not_lt.2 hcontrol⟩

theorem head?_escape (c : Char) (rest : List Char) : (escape c ++ rest).head? ≠ some '"' := by
  rcases escape_cases c with ⟨mark, -, h⟩ | ⟨-, h⟩ | ⟨-, hquote, -, h⟩ <;> rw [h]
  · simp
  · simp
  · simpa using hquote

theorem length_escape_pos (c : Char) : 0 < (escape c).length := by
  rcases escape_cases c with ⟨mark, -, h⟩ | ⟨-, h⟩ | ⟨-, -, -, h⟩ <;> rw [h] <;> simp

theorem readChars_escape {fuel : Nat} {value : List Char}
    (hfuel : (value.flatMap escape).length < fuel) (rest : List Char) :
    readChars fuel (value.flatMap escape ++ '"' :: rest) = some (value, rest) := by
  induction value generalizing fuel with
  | nil =>
      obtain ⟨fuel, rfl⟩ := Nat.exists_eq_succ_of_ne_zero (Nat.ne_of_gt hfuel)
      rfl
  | cons c value ih =>
      rw [List.flatMap_cons, List.length_append] at hfuel
      -- A character takes one piece of fuel, and its escape is at least as long.
      have hpos := length_escape_pos c
      obtain ⟨fuel, rfl⟩ : ∃ n, fuel = n + 1 := ⟨fuel - 1, by omega⟩
      rw [List.flatMap_cons, List.append_assoc, readChars, if_neg (head?_escape c _),
        readChar?_escape]
      dsimp only
      rw [ih (by omega)]
      rfl

/-! ### Spaces and numbers -/

theorem skipSpace_lineAt (depth : Nat) (text : List Char) :
    skipSpace (lineAt depth ++ text) = skipSpace text := by
  have hspace : ∀ c ∈ lineAt depth, isSpace c = true := by
    intro c hc
    rcases List.mem_cons.1 hc with rfl | hc
    · rfl
    · rw [List.eq_of_mem_replicate hc]
      rfl
  exact List.dropWhile_append_of_pos hspace

theorem skipSpace_cons {c : Char} (h : isSpace c = false) (text : List Char) :
    skipSpace (c :: text) = c :: text := by
  unfold skipSpace
  rw [List.dropWhile_cons, if_neg (by rw [h]; decide)]

theorem readValue_congr {text text' : List Char} (h : skipSpace text = skipSpace text')
    (fuel : Nat) : readValue fuel text = readValue fuel text' := by
  cases fuel with
  | zero => rfl
  | succ fuel => rw [readValue, readValue, h]

def EndsNumber (rest : List Char) : Prop :=
  ∀ c ∈ rest.head?, isNumberPart c = false

theorem endsNumber_cons {c : Char} (h : isNumberPart c = false) (rest : List Char) :
    EndsNumber (c :: rest) := by
  intro x hx
  obtain rfl : c = x := Option.some.inj hx
  exact h

theorem endsNumber_lineAt (depth : Nat) (rest : List Char) : EndsNumber (lineAt depth ++ rest) :=
  endsNumber_cons (c := '\n') rfl _

theorem isSpace_eq_false {c : Char} (h : isNumberPart c = true) : isSpace c = false := by
  cases hspace : isSpace c with
  | false => rfl
  | true =>
      have hcases : ((c = ' ' ∨ c = '\t') ∨ c = '\n') ∨ c = '\r' := by simpa [isSpace] using hspace
      rcases hcases with ((rfl | rfl) | rfl) | rfl <;> contradiction

theorem isNumberPart_of_mem_text {w : Number.Written} (h : w.WellFormed) :
    ∀ c ∈ w.text, isNumberPart c = true := by
  intro c hc
  rcases Number.Written.mem_text h hc with hdigit | hmark
  · simp [isNumberPart, hdigit]
  · have hall : Number.Written.marks.all isNumberPart = true := by decide
    exact List.all_eq_true.1 hall c hmark

theorem readNumber_text {w : Number.Written} (h : w.WellFormed) {rest : List Char}
    (hrest : EndsNumber rest) : readNumber (w.text ++ rest) = some (.number w.text, rest) := by
  have hparts := isNumberPart_of_mem_text h
  unfold readNumber
  dsimp only
  rw [Text.takeWhile_append hparts hrest, Text.dropWhile_append hparts hrest,
    Number.Written.ofText?_eq_some_iff.2 ⟨h, rfl⟩]
  rfl

/-! ### Elements and members -/

section

variable {α : Type} (element : List Char → Option (α × List Char)) (write : α → List Char)
  {close : Char} (hspace : isSpace close = false) (hcomma : close ≠ ',')
  (depth : Nat) (rest : List Char)

include hspace hcomma

theorem readElements_flatMap {x : α} {xs : List α} {fuel : Nat} (hfuel : xs.length < fuel)
    (h : ∀ y ∈ x :: xs, ∀ more, EndsNumber more →
      element (write y ++ more) = some (y, skipSpace more)) :
    readElements element close fuel
      (write x ++ (xs.flatMap (fun y => ',' :: write y) ++ (lineAt depth ++ close :: rest))) =
        some (x :: xs, rest) := by
  -- The last element stands in front of the closing mark, any other in front of a comma.
  induction xs generalizing x fuel with
  | nil =>
      obtain ⟨fuel, rfl⟩ := Nat.exists_eq_succ_of_ne_zero (Nat.ne_of_gt hfuel)
      have hend : skipSpace (lineAt depth ++ close :: rest) = close :: rest := by
        rw [skipSpace_lineAt, skipSpace_cons hspace]
      rw [readElements, List.flatMap_nil, List.nil_append,
        h x List.mem_cons_self _ (endsNumber_lineAt depth _), hend]
      dsimp only
      rw [if_neg hcomma, if_pos rfl]
  | cons y xs ih =>
      obtain ⟨fuel, rfl⟩ := Nat.exists_eq_succ_of_ne_zero (Nat.ne_of_gt (Nat.zero_lt_of_lt hfuel))
      obtain ⟨hx, hxs⟩ := List.forall_mem_cons.1 h
      have hrest := ih (Nat.lt_of_succ_lt_succ hfuel) hxs
      rw [readElements, List.flatMap_cons, List.cons_append, List.cons_append, List.append_assoc,
        hx _ (endsNumber_cons (c := ',') rfl _), skipSpace_cons (c := ',') rfl]
      dsimp only
      rw [if_pos rfl, hrest]
      rfl

theorem readBracketed_flatMap {x : α} {xs : List α} {fuel : Nat} (hfuel : xs.length < fuel)
    (hfirst : ∀ more, (skipSpace (write x ++ more)).head? ≠ some close)
    (h : ∀ y ∈ x :: xs, ∀ more, EndsNumber more →
      element (write y ++ more) = some (y, skipSpace more)) :
    readBracketed element close fuel
      (write x ++ (xs.flatMap (fun y => ',' :: write y) ++ (lineAt depth ++ close :: rest))) =
        some (x :: xs, rest) := by
  rw [readBracketed, if_neg (hfirst _)]
  exact readElements_flatMap element write hspace hcomma depth rest hfuel h

end

def writeItem (depth : Nat) (item : Json) : List Char :=
  lineAt depth ++ item.pretty depth

def writeMember (depth : Nat) (member : String × Json) : List Char :=
  lineAt depth ++ (quote member.1.toList ++ (':' :: ' ' :: member.2.pretty depth))

theorem prettyItems_eq (depth : Nat) (items : List Json) :
    prettyItems depth items = items.flatMap fun item => ',' :: writeItem depth item := by
  induction items with
  | nil => rw [prettyItems, List.flatMap_nil]
  | cons item items ih => simp [prettyItems, writeItem, ih]

theorem prettyMembers_eq (depth : Nat) (members : List (String × Json)) :
    prettyMembers depth members =
      members.flatMap fun member => ',' :: writeMember depth member := by
  induction members with
  | nil => rw [prettyMembers, List.flatMap_nil]
  | cons member members ih =>
      obtain ⟨name, value⟩ := member
      simp [prettyMembers, writeMember, ih]

theorem pretty_array (depth : Nat) (item : Json) (items : List Json) :
    (array (item :: items)).pretty depth =
      '[' :: (writeItem (depth + 1) item ++
        (items.flatMap (fun item => ',' :: writeItem (depth + 1) item) ++
          (lineAt depth ++ [']']))) := by
  rw [pretty, prettyItems_eq]
  simp [writeItem]

theorem pretty_object (depth : Nat) (member : String × Json) (members : List (String × Json)) :
    (object (member :: members)).pretty depth =
      '\x7b' :: (writeMember (depth + 1) member ++
        (members.flatMap (fun member => ',' :: writeMember (depth + 1) member) ++
          (lineAt depth ++ ['\x7d']))) := by
  obtain ⟨name, value⟩ := member
  rw [pretty, prettyMembers_eq]
  simp [writeMember]

inductive WellFormed : Json → Prop
  | null : WellFormed .null
  | number {w : Number.Written} (h : w.WellFormed) : WellFormed (.number w.text)
  | string {value : String} : WellFormed (.string value)
  | array {items : List Json} (h : ∀ item ∈ items, WellFormed item) : WellFormed (.array items)
  | object {members : List (String × Json)} (h : ∀ member ∈ members, WellFormed member.2) :
      WellFormed (.object members)

theorem WellFormed.exists_cons_pretty {v : Json} (h : v.WellFormed) (depth : Nat) :
    ∃ c more, v.pretty depth = c :: more ∧ isSpace c = false ∧ c ≠ ']' := by
  cases h with
  | null => exact ⟨_, _, rfl, rfl, by decide⟩
  | @number w hw =>
      have hparts := isNumberPart_of_mem_text hw
      obtain ⟨c, more, htext⟩ := List.exists_cons_of_ne_nil (Number.Written.text_ne_nil hw)
      have hc := hparts c (htext ▸ List.mem_cons_self)
      refine ⟨c, more, htext, isSpace_eq_false hc, ?_⟩
      rintro rfl
      contradiction
  | string => exact ⟨_, _, rfl, rfl, by decide⟩
  | @array items =>
      cases items with
      | nil => exact ⟨_, _, rfl, rfl, by decide⟩
      | cons item items => exact ⟨_, _, pretty_array depth item items, rfl, by decide⟩
  | @object members =>
      cases members with
      | nil => exact ⟨_, _, rfl, rfl, by decide⟩
      | cons member members => exact ⟨_, _, pretty_object depth member members, rfl, by decide⟩

theorem length_le_flatMap {α : Type} (write : α → List Char) (xs : List α) :
    xs.length ≤ (xs.flatMap fun x => ',' :: write x).length ∧
      ∀ y ∈ xs, (write y).length ≤ (xs.flatMap fun x => ',' :: write x).length := by
  induction xs with
  | nil => simp
  | cons x xs ih =>
      obtain ⟨hlength, hwrite⟩ := ih
      rw [List.flatMap_cons, List.length_append, List.length_cons, List.length_cons]
      refine ⟨by omega, List.forall_mem_cons.2 ⟨by omega, ?_⟩⟩
      intro y hy
      have := hwrite y hy
      omega

theorem length_lt_of_elements {α : Type} {write : α → List Char} {x : α} {xs : List α}
    {behind : List Char} {fuel : Nat} (hbehind : behind ≠ [])
    (h : (write x ++ (xs.flatMap (fun x => ',' :: write x) ++ behind)).length ≤ fuel) :
    xs.length < fuel ∧ ∀ y ∈ x :: xs, (write y).length ≤ fuel := by
  obtain ⟨hlength, hwrite⟩ := length_le_flatMap write xs
  have hpos := List.length_pos_iff.2 hbehind
  rw [List.length_append, List.length_append] at h
  refine ⟨by omega, List.forall_mem_cons.2 ⟨by omega, ?_⟩⟩
  intro y hy
  have := hwrite y hy
  omega

theorem readChars_quote (fuel : Nat) (value : String)
    (hfuel : (quote value.toList).length ≤ fuel + 1) (rest : List Char) :
    ∃ body, quote value.toList ++ rest = '"' :: body ∧
      readChars fuel body = some (value.toList, rest) := by
  refine ⟨value.toList.flatMap escape ++ '"' :: rest, by simp [quote], ?_⟩
  refine readChars_escape ?_ rest
  rw [quote, List.length_append, List.length_cons, List.length_singleton] at hfuel
  omega

/-- A value is read back from its indented text, whatever comes behind. -/
def ReadsBack (v : Json) : Prop :=
  ∀ depth fuel rest, (v.pretty depth).length ≤ fuel → EndsNumber rest →
    readValue fuel (v.pretty depth ++ rest) = some (v, skipSpace rest)

theorem readValue_of_readBare {size fuel : Nat} {c : Char} {text rest : List Char} {v : Json}
    (hc : isSpace c = false) (hfuel : size < fuel)
    (h : ∀ n, fuel = n + 1 → readBare (readValue n) n (c :: text) = some (v, rest)) :
    readValue fuel (c :: text) = some (v, skipSpace rest) := by
  obtain ⟨n, rfl⟩ := Nat.exists_eq_succ_of_ne_zero (Nat.ne_of_gt (Nat.zero_lt_of_lt hfuel))
  rw [readValue, skipSpace_cons hc, h n rfl]
  rfl

theorem readsBack_null : ReadsBack .null := by
  intro depth fuel rest hfuel _
  refine readValue_of_readBare rfl hfuel ?_
  rintro n rfl
  rfl

theorem readsBack_string (value : String) : ReadsBack (.string value) := by
  intro depth fuel rest hfuel _
  rw [pretty] at hfuel ⊢
  obtain ⟨body, hbody, hread⟩ := readChars_quote (fuel - 1) value (by omega) rest
  rw [hbody]
  refine readValue_of_readBare rfl hfuel ?_
  rintro n rfl
  rw [readBare, if_pos rfl]
  rw [Nat.add_sub_cancel] at hread
  rw [hread, Option.map_some]
  exact congrArg (fun value => some (Json.string value, rest)) String.ofList_toList

theorem readsBack_number {w : Number.Written} (hw : w.WellFormed) : ReadsBack (.number w.text) := by
  intro depth fuel rest hfuel hrest
  have hread := readNumber_text hw hrest
  obtain ⟨c, more, htext⟩ := List.exists_cons_of_ne_nil (Number.Written.text_ne_nil hw)
  have hc := isNumberPart_of_mem_text hw c (htext ▸ List.mem_cons_self)
  -- No other value begins with a character of a number.
  have hne : ∀ x, isNumberPart x = false → c ≠ x := by
    rintro x hx rfl
    rw [hc] at hx
    contradiction
  rw [pretty] at hfuel ⊢
  rw [htext, List.cons_append] at hread ⊢
  rw [htext] at hfuel
  refine readValue_of_readBare (isSpace_eq_false hc) hfuel ?_
  rintro n rfl
  rw [readBare, if_neg (hne _ rfl), if_neg (hne _ rfl), if_neg (hne _ rfl), if_neg (hne _ rfl),
    hread]

section

variable {v : Json} (h : v.ReadsBack) {depth fuel : Nat} {rest : List Char}
  (hrest : EndsNumber rest)

include h hrest

theorem ReadsBack.readValue_writeItem (hfuel : (writeItem depth v).length ≤ fuel) :
    readValue fuel (writeItem depth v ++ rest) = some (v, skipSpace rest) := by
  rw [writeItem, List.length_append] at hfuel
  rw [writeItem, List.append_assoc, readValue_congr (skipSpace_lineAt depth _),
    h depth fuel rest (by omega) hrest]

theorem ReadsBack.readMember_writeMember {name : String}
    (hfuel : (writeMember depth (name, v)).length ≤ fuel) :
    readMember (readValue fuel) fuel (writeMember depth (name, v) ++ rest) =
      some ((name, v), skipSpace rest) := by
  simp only [writeMember, List.length_append, List.length_cons] at hfuel
  obtain ⟨body, hbody, hname⟩ :=
    readChars_quote fuel name (by omega) (':' :: ' ' :: (v.pretty depth ++ rest))
  have hspace : skipSpace (' ' :: (v.pretty depth ++ rest)) = skipSpace (v.pretty depth ++ rest) :=
    rfl
  unfold readMember writeMember
  rw [List.append_assoc, skipSpace_lineAt, List.append_assoc, List.cons_append, List.cons_append,
    hbody, skipSpace_cons rfl, if_pos List.head?_cons, List.tail_cons, hname]
  dsimp only
  rw [skipSpace_cons (c := ':') rfl, if_pos List.head?_cons, List.tail_cons,
    readValue_congr hspace, h depth fuel rest (by omega) hrest, String.ofList_toList]
  rfl

end

theorem head?_skipSpace_lineAt {c close : Char} (hc : isSpace c = false) (hclose : c ≠ close)
    (depth : Nat) (text : List Char) :
    (skipSpace (lineAt depth ++ c :: text)).head? ≠ some close := by
  rw [skipSpace_lineAt, skipSpace_cons hc, List.head?_cons]
  simpa using hclose

theorem readsBack_array {items : List Json} (hform : ∀ item ∈ items, item.WellFormed)
    (h : ∀ item ∈ items, item.ReadsBack) : ReadsBack (.array items) := by
  intro depth fuel rest hfuel _
  cases items with
  | nil =>
      refine readValue_of_readBare rfl hfuel ?_
      rintro n rfl
      rfl
  | cons item items =>
      obtain ⟨c, more, hfirst, hspace, hclose⟩ :=
        (hform item List.mem_cons_self).exists_cons_pretty (depth + 1)
      rw [pretty_array] at hfuel ⊢
      rw [List.cons_append, List.append_assoc, List.append_assoc, List.append_assoc,
        List.singleton_append]
      refine readValue_of_readBare rfl hfuel ?_
      rintro n rfl
      obtain ⟨hlength, hwrite⟩ :=
        length_lt_of_elements (by simp [lineAt]) (Nat.le_of_succ_le_succ hfuel)
      have hread : readBracketed (readValue n) ']' n _ = some (item :: items, rest) :=
        readBracketed_flatMap (readValue n) (writeItem (depth + 1)) rfl (by decide) depth rest
          hlength
          (fun text => by
            rw [writeItem, hfirst, List.append_assoc]
            exact head?_skipSpace_lineAt hspace hclose _ _)
          (fun y hy text htext => (h y hy).readValue_writeItem htext (hwrite y hy))
      rw [readBare, if_neg (by decide), if_pos rfl, hread]
      rfl

theorem readsBack_object {members : List (String × Json)}
    (h : ∀ member ∈ members, member.2.ReadsBack) : ReadsBack (.object members) := by
  intro depth fuel rest hfuel _
  cases members with
  | nil =>
      refine readValue_of_readBare rfl hfuel ?_
      rintro n rfl
      rfl
  | cons member members =>
      rw [pretty_object] at hfuel ⊢
      rw [List.cons_append, List.append_assoc, List.append_assoc, List.append_assoc,
        List.singleton_append]
      refine readValue_of_readBare rfl hfuel ?_
      rintro n rfl
      obtain ⟨hlength, hwrite⟩ :=
        length_lt_of_elements (by simp [lineAt]) (Nat.le_of_succ_le_succ hfuel)
      have hread : readBracketed (readMember (readValue n) n) '\x7d' n _ =
          some (member :: members, rest) :=
        readBracketed_flatMap (readMember (readValue n) n) (writeMember (depth + 1)) rfl (by decide)
          depth rest hlength
          (fun text => by
            rw [writeMember, List.append_assoc]
            exact head?_skipSpace_lineAt (c := '"') rfl (by decide) _ _)
          (fun y hy text htext => (h y hy).readMember_writeMember htext (hwrite y hy))
      rw [readBare, if_neg (by decide), if_neg (by decide), if_pos rfl, hread]
      rfl

/-- The induction is on the values inside: each of them is read with what is left of the fuel
at its place. -/
theorem WellFormed.readsBack {v : Json} (h : v.WellFormed) : v.ReadsBack := by
  induction h with
  | null => exact readsBack_null
  | number hw => exact readsBack_number hw
  | string => exact readsBack_string _
  | array hitems ih => exact readsBack_array hitems ih
  | object _ ih => exact readsBack_object ih

/-- The indented text of a value, with spaces behind it or nothing, is read as the value. -/
theorem WellFormed.read?_pretty {v : Json} (h : v.WellFormed) (depth : Nat) (space : List Char)
    (hspace : ∀ c ∈ space, isSpace c = true) : read? (v.pretty depth ++ space) = some v := by
  have hend : EndsNumber space := by
    intro c hc
    cases hpart : isNumberPart c with
    | false => rfl
    | true =>
        have hc := hspace c (List.mem_of_mem_head? hc)
        rw [isSpace_eq_false hpart] at hc
        contradiction
  have hskip : skipSpace space = [] := by
    rw [skipSpace, ← List.append_nil space, List.dropWhile_append_of_pos hspace]
    rfl
  have hread := h.readsBack depth (v.pretty depth ++ space).length space (by simp) hend
  rw [read?, hread, hskip]

end ScriptLexer.Json
