import ScriptLexer.Proofs.CursorPlace
import ScriptLexer.Proofs.Loop

/-!
A scan that checks every step which could go wrong: that a lexeme is cut out of the script
between characters, that spans do not run backwards, that the counter of lines stays within
its bound, that a mark which was found is there when it is taken, and that a token has a
literal exactly if its kind asks for one. It also gives up if there are more turns of the
loop than characters in the script. No script makes a check fail: the checked scan gives
what the scan gives.
-/

namespace ScriptLexer

/-- What a checked scan stops at. -/
inductive Breach where
  /-- A slice of the script out of order, out of bounds, or through a character. -/
  | slice
  | span
  /-- A line behind the last that the script can have. -/
  | line
  | mark
  | misfit (misfit : Token.Misfit)
  | unfinished
  deriving DecidableEq

/-! ### The kinds of the tables -/

namespace Kind

theorem isLiteral_ofMark? {c : Char} {kind : Kind} (h : ofMark? c = some kind) :
    kind.isLiteral = false := by
  unfold ofMark? at h
  split at h <;> simp only [Option.some.injEq, reduceCtorEq] at h <;> subst h <;> rfl

theorem isLiteral_ofOperator? {c : Char} {pair : OperatorPair} (h : ofOperator? c = some pair) :
    pair.alone.isLiteral = false ∧ pair.withEqual.isLiteral = false := by
  unfold ofOperator? at h
  split at h <;> simp only [Option.some.injEq, reduceCtorEq] at h <;> subst h <;> exact ⟨rfl, rfl⟩

theorem isLiteral_wordKind (word : String) : (Lexeme.wordKind word).isLiteral = false := by
  unfold Lexeme.wordKind
  split <;> rfl

end Kind

theorem Lexeme.isSome_eq_isLiteral {text : List Char} {kind : Kind} {literal : Option Literal}
    (h : Lexeme text (.token kind literal)) : literal.isSome = kind.isLiteral := by
  cases h with
  | mark _ hkind => exact (Kind.isLiteral_ofMark? hkind).symm
  | operator _ hpair => exact (Kind.isLiteral_ofOperator? hpair).1.symm
  | operatorEqual _ hpair => exact (Kind.isLiteral_ofOperator? hpair).2.symm
  | word => exact (Kind.isLiteral_wordKind _).symm
  | _ => rfl

namespace Checked

variable (script : List Char)

/-! ### The checks -/

def offset (c : Cursor) : Nat :=
  Text.byteLength script - Text.byteLength c.rest

def lexeme (c : Cursor) : Except Breach (List Char) :=
  match Text.slice? c.start (offset script c) script with
  | some text => .ok text
  | none => .error .slice

def span (c : Cursor) : Except Breach Span :=
  if c.start ≤ offset script c then .ok ⟨c.start, offset script c - c.start⟩
  else .error .span

/-- Counts lines, of which there is at most one more than bytes in the script. -/
def addLines (c : Cursor) (lines : Nat) : Except Breach Cursor :=
  if c.line + lines ≤ Text.byteLength script + 1 then .ok { c with line := c.line + lines }
  else .error .line

def token (kind : Kind) (lexeme : String) (literal : Option Literal) (line : Nat)
    (span : Span) : Except Breach Token :=
  match Token.build kind lexeme literal line span with
  | .ok t => .ok t
  | .error misfit => .error (.misfit misfit)

/-! ### The cursor -/

def takeUpTo (c : Cursor) (stop : Char) : Except Breach (List Char × Cursor) := do
  let (run, c) := c.takeRun (· != stop)
  let c ← addLines script c (Text.lineFeeds run)
  return (run, c)

def takeMark (c : Cursor) (mark : List Char) : Except Breach Cursor :=
  if mark.isPrefixOf c.rest then .ok (c.take mark (c.rest.drop mark.length)) else .error .mark

def takePast (c : Cursor) (mark : List Char) : Except Breach (Option (List Char) × Cursor) :=
  match Text.splitAtMark? mark c.rest with
  | some (before, _) => do
    let c ← addLines script (c.take before (c.rest.drop before.length)) (Text.lineFeeds before)
    let c ← takeMark c mark
    return (some before, c)
  | none => do
    let (rest, c) := c.takeRun fun _ => true
    let c ← addLines script c (Text.lineFeeds rest)
    return (none, c)

/-! ### Reading a lexeme -/

def afterSlash (c : Cursor) : Except Breach (Reading × Cursor) :=
  match c.accept '/' with
  | (true, c) => do
    let (_, c) ← takeUpTo script c '\n'
    return (.skipped, c)
  | (false, c) =>
    match c.accept '*' with
    | (true, c) => do
      match ← takePast script c ['*', '/'] with
      | (some _, c) => return (.skipped, c)
      | (none, c) => return (.fault .unterminatedComment, c)
    | (false, c) => return (.token .slash none, c)

def afterQuote (quote : Char) (c : Cursor) : Except Breach (Reading × Cursor) := do
  let (body, c) ← takeUpTo script c quote
  match c.accept quote with
  | (true, c) => return (.token .string (some (.text (String.ofList body))), c)
  | (false, c) => return (.fault .unterminatedString, c)

/-- Cuts a number or a word out of the script before its value is read, also where a point
behind a number has been given back. -/
def lookUp (reading : Reading) (c : Cursor) : Except Breach (Reading × Cursor) := do
  let _ ← lexeme script c
  return (reading, c)

def afterDigit (first : Char) (c : Cursor) : Except Breach (Reading × Cursor) :=
  let (more, c) := c.takeRun Char.isDigit
  match c.takeFraction with
  | (some fraction, c) => lookUp script (.ofDecimal (first :: more) fraction) c
  | (none, c) => lookUp script (.ofInteger (first :: more)) c

def afterWordStart (first : Char) (c : Cursor) : Except Breach (Reading × Cursor) :=
  let (more, c) := c.takeRun isWordPart
  lookUp script (.token (.ofWord (String.ofList (first :: more))) none) c

def afterFirst (first : Char) (c : Cursor) : Except Breach (Reading × Cursor) :=
  match Kind.ofMark? first with
  | some kind => return (.token kind none, c)
  | none =>
    match Kind.ofOperator? first with
    | some pair =>
      match c.accept '=' with
      | (true, c) => return (.token pair.withEqual none, c)
      | (false, c) => return (.token pair.alone none, c)
    | none =>
      if first = '/' then afterSlash script c
      else if first = ' ' ∨ first = '\t' ∨ first = '\r' then return (.skipped, c)
      else if first = '\n' then do
        let c ← addLines script c 1
        return (.skipped, c)
      else if first = '"' ∨ first = '\'' then afterQuote script first c
      else if first.isDigit then afterDigit script first c
      else if isWordStart first then afterWordStart script first c
      else return (.fault (.invalidCharacter first), c)

/-! ### The loop -/

def item? (c : Cursor) : Reading → Except Breach (Option Scan.Item)
  | .skipped => return none
  | .token kind literal => do
    let text ← lexeme script c
    let span ← span script c
    let t ← token kind (String.ofList text) literal c.startLine span
    return some (.token t)
  | .fault kind => do
    let span ← span script c
    return some (.fault ⟨kind, c.startLine, span⟩)

def turn (items : List Scan.Item) (c : Cursor) : Except Breach (List Scan.Item × Cursor) :=
  match c.mark.next with
  | (none, c) => return (items, c)
  | (some first, c) => do
    let (reading, c) ← afterFirst script first c
    let item ← item? script c reading
    return (items ++ item.toList, c)

def loop : Nat → List Scan.Item → Cursor → Except Breach (List Scan.Item × Cursor)
  | turns, items, c =>
    if c.atEnd then return (items, c)
    else
      match turns with
      | 0 => throw .unfinished
      | turns + 1 => do
        let (items, c) ← turn script items c
        loop turns items c

/-- The checked scan of a script: the items, and the token at the end. There are as many
turns as characters. -/
def scan : Except Breach (List Scan.Item × Token) := do
  let (items, c) ← loop script script.length [] (.ofText script)
  let last ← token .endOfText "" none c.line ⟨offset script c, 0⟩
  return (items, last)

/-! ### No check fails -/

section

variable {script} {c : Cursor}

theorem ok_bind {α β : Type} (x : α) (f : α → Except Breach β) : (Except.ok x >>= f) = f x := rfl

theorem offset_eq (h : c.IsPlaced script) : offset script c = c.offset := by
  have := h.offset_add
  rw [offset]
  omega

theorem lexeme_eq (h : c.IsPlaced script) : lexeme script c = .ok c.lexeme := by
  rw [lexeme, offset_eq h, h.slice?_eq]

theorem span_eq (h : c.IsPlaced script) : span script c = .ok c.span := by
  rw [span, offset_eq h, Cursor.offset, if_pos (Nat.le_add_right ..), Nat.add_sub_cancel_left]
  rfl

theorem addLines_eq {lines : Nat} (h : c.line + lines ≤ Text.byteLength script + 1) :
    addLines script c lines = .ok { c with line := c.line + lines } :=
  if_pos h

/-- The counter has room for all lines that are still to come. -/
def HasRoom (script : List Char) (c : Cursor) : Prop :=
  c.line + Text.lineFeeds c.rest ≤ Text.byteLength script + 1

theorem HasRoom.accept (h : HasRoom script c) {expected : Char} {isThere : Bool} {d : Cursor}
    (hd : c.accept expected = (isThere, d)) : HasRoom script d := by
  unfold Cursor.accept at hd
  split at hd
  · obtain ⟨-, rfl⟩ := Prod.mk.inj hd
    exact h
  · next char rest hrest =>
    split at hd
    · obtain ⟨-, rfl⟩ := Prod.mk.inj hd
      rw [HasRoom, hrest, Text.lineFeeds_cons] at h
      show c.line + Text.lineFeeds rest ≤ _
      omega
    · obtain ⟨-, rfl⟩ := Prod.mk.inj hd
      exact h

theorem addLines_take (h : HasRoom script c) {text rest : List Char}
    (hrest : c.rest = text ++ rest) :
    addLines script (c.take text rest) (Text.lineFeeds text) =
      .ok ((c.take text rest).countLines text) := by
  rw [HasRoom, hrest, Text.lineFeeds_append] at h
  refine addLines_eq ?_
  show c.line + Text.lineFeeds text ≤ _
  omega

theorem takeUpTo_eq (h : HasRoom script c) (stop : Char) :
    takeUpTo script c stop = .ok (c.takeUpTo stop) := by
  unfold takeUpTo
  dsimp only [Cursor.takeRun]
  rw [addLines_take h List.takeWhile_append_dropWhile.symm]
  rfl

theorem takeMark_eq {mark after : List Char} (h : c.rest = mark ++ after) :
    takeMark c mark = .ok (c.take mark after) := by
  rw [takeMark, h, if_pos (List.isPrefixOf_iff_prefix.2 (List.prefix_append ..)), List.drop_left]

theorem takePast_eq (h : HasRoom script c) (mark : List Char) :
    takePast script c mark = .ok (c.takePast mark) := by
  unfold takePast Cursor.takePast
  cases hsplit : Text.splitAtMark? mark c.rest with
  | none =>
      have hall : c.takeRun (fun _ => true) = (c.rest, c.take c.rest []) :=
        Cursor.takeRun_eq_take (List.append_nil _).symm (by simp) (by simp)
      dsimp only
      rw [hall, addLines_take h (List.append_nil _).symm]
      rfl
  | some found =>
      obtain ⟨before, after⟩ := found
      have hrest : c.rest = before ++ (mark ++ after) := by
        rw [Text.eq_append_of_splitAtMark? hsplit, List.append_assoc]
      have hdrop : c.rest.drop before.length = mark ++ after := by
        rw [hrest, List.drop_left]
      dsimp only
      rw [hdrop, addLines_take h hrest, ok_bind, takeMark_eq rfl, ok_bind]
      simp [Cursor.take, Cursor.countLines, pure, Except.pure]

theorem afterSlash_eq (h : HasRoom script c) :
    afterSlash script c = .ok (Reading.afterSlash c) := by
  unfold afterSlash Reading.afterSlash
  rcases hslash : c.accept '/' with ⟨_ | _, c₁⟩
  · dsimp only
    rcases hstar : c₁.accept '*' with ⟨_ | _, c₂⟩
    · rfl
    · dsimp only
      rw [takePast_eq ((h.accept hslash).accept hstar)]
      rcases c₂.takePast ['*', '/'] with ⟨_ | _, c₃⟩ <;> rfl
  · dsimp only
    rw [takeUpTo_eq (h.accept hslash)]
    rfl

theorem afterQuote_eq (h : HasRoom script c) (quote : Char) :
    afterQuote script quote c = .ok (Reading.afterQuote quote c) := by
  unfold afterQuote Reading.afterQuote
  rw [takeUpTo_eq h, ok_bind]
  rcases c.takeUpTo quote with ⟨body, c₁⟩
  dsimp only
  rcases c₁.accept quote with ⟨_ | _, c₂⟩ <;> rfl

theorem lookUp_eq (h : c.IsPlaced script) (reading : Reading) :
    lookUp script reading c = .ok (reading, c) := by
  rw [lookUp, lexeme_eq h]
  rfl

theorem afterDigit_eq (h : c.IsPlaced script) (first : Char) :
    afterDigit script first c = .ok (Reading.afterDigit first c) := by
  have hrun := h.of_advances (c.advances_takeRun Char.isDigit)
  have hfraction := hrun.of_advances (Cursor.advances_takeFraction _)
  unfold afterDigit Reading.afterDigit
  dsimp only
  rcases hread : (c.takeRun Char.isDigit).2.takeFraction with ⟨_ | fraction, c₁⟩ <;>
    rw [hread] at hfraction
  · exact lookUp_eq hfraction _
  · exact lookUp_eq hfraction _

theorem afterWordStart_eq (h : c.IsPlaced script) (first : Char) :
    afterWordStart script first c = .ok (Reading.afterWordStart first c) :=
  lookUp_eq (h.of_advances (c.advances_takeRun isWordPart)) _

/-- Reading goes on without a breach behind a first character whose own line has not yet been
counted. -/
theorem afterFirst_eq (h : c.IsPlaced script) {first : Char}
    (hroom : c.line + Text.lineFeeds (first :: c.rest) ≤ Text.byteLength script + 1) :
    afterFirst script first c = .ok (Reading.afterFirst first c) := by
  have hrest : HasRoom script c := by
    rw [Text.lineFeeds_cons] at hroom
    exact Nat.le_trans (by omega) hroom
  unfold afterFirst Reading.afterFirst
  cases Kind.ofMark? first with
  | some kind => rfl
  | none =>
      cases Kind.ofOperator? first with
      | some pair =>
          dsimp only
          rcases c.accept '=' with ⟨_ | _, c₁⟩ <;> rfl
      | none =>
          dsimp only
          split
          · exact afterSlash_eq hrest
          split
          · rfl
          split
          · next hline =>
            rw [hline, Text.lineFeeds_cons, if_pos rfl] at hroom
            rw [addLines_eq (by omega)]
            rfl
          split
          · exact afterQuote_eq hrest first
          split
          · exact afterDigit_eq h first
          split
          · exact afterWordStart_eq h first
          · rfl

theorem token_eq {kind : Kind} {literal : Option Literal} (h : literal.isSome = kind.isLiteral)
    (lexeme : String) (line : Nat) (span : Span) :
    token kind lexeme literal line span = .ok ⟨kind, lexeme, literal, line, span⟩ := by
  rw [token, Token.build_eq_ok_iff.2 ⟨h, rfl⟩]

theorem item?_eq (h : c.IsPlaced script) {text : List Char} {reading : Reading}
    (hlexeme : Lexeme text reading) : item? script c reading = .ok (reading.item? c) := by
  cases reading with
  | skipped => rfl
  | fault kind =>
      rw [item?, span_eq h]
      rfl
  | token kind literal =>
      rw [item?, lexeme_eq h, ok_bind, span_eq h, ok_bind, token_eq hlexeme.isSome_eq_isLiteral]
      rfl

end

end Checked

namespace Scan

section

open Checked

variable {script : List Char} {items : List Item} {c : Cursor}

/-! ### The loop -/

theorem isPlaced_next? (h : c.IsPlaced script) {reading : Reading} {after : Cursor}
    (hnext : Reading.next? c = some (reading, after)) : after.IsPlaced script := by
  obtain ⟨text, rest, -, -, hrest, rfl⟩ := Reading.next?_eq_some_iff.1 hnext
  exact h.mark.take hrest

theorem hasRoom_next? (h : HasRoom script c) {reading : Reading} {after : Cursor}
    (hnext : Reading.next? c = some (reading, after)) : HasRoom script after := by
  obtain ⟨text, rest, -, -, hrest, rfl⟩ := Reading.next?_eq_some_iff.1 hnext
  rw [HasRoom, hrest, Text.lineFeeds_append] at h
  rw [HasRoom, Cursor.past_line, Cursor.past_rest]
  omega

theorem Reached.isPlaced (h : Reached script items c) : c.IsPlaced script := by
  induction h with
  | start => exact Cursor.isPlaced_ofText script
  | step _ hnext ih => exact isPlaced_next? ih hnext

theorem Reached.hasRoom (h : Reached script items c) : HasRoom script c := by
  induction h with
  | start =>
      have := Text.lineFeeds_le_byteLength script
      show 1 + Text.lineFeeds script ≤ _
      omega
  | step _ hnext ih => exact hasRoom_next? ih hnext

theorem Reached.turn_eq (h : Reached script items c) {reading : Reading} {after : Cursor}
    (hnext : Reading.next? c = some (reading, after)) :
    turn script items c = .ok (items ++ (reading.item? after).toList, after) := by
  obtain ⟨text, -, hlexeme, -⟩ := Reading.next?_eq_some_iff.1 hnext
  have hafter := isPlaced_next? h.isPlaced hnext
  cases hrest : c.rest with
  | nil =>
      rw [Reading.next?_eq_none_iff.2 hrest] at hnext
      contradiction
  | cons first rest =>
      have hfirst : c.mark.next = (some first, c.mark.take [first] rest) := by
        simp [Cursor.next, Cursor.mark, hrest]
      have hplaced : (c.mark.take [first] rest).IsPlaced script := h.isPlaced.mark.take hrest
      have hroom := h.hasRoom
      rw [HasRoom, hrest] at hroom
      rw [Reading.next?_eq_some hrest, Option.some.injEq] at hnext
      rw [turn, hfirst]
      dsimp only
      rw [afterFirst_eq hplaced hroom, ok_bind, hnext]
      dsimp only
      rw [item?_eq hafter hlexeme]
      rfl

theorem loop_of_rest_eq_nil (turns : Nat) (h : c.rest = []) :
    loop script turns items c = .ok (items, c) := by
  cases turns <;> exact if_pos (List.isEmpty_iff.2 h)

theorem Reached.loop_eq {turns : Nat} (h : Reached script items c)
    (hturns : c.rest.length ≤ turns) :
    loop script turns items c = .ok (items ++ (itemsFrom c).1, (itemsFrom c).2) ∧
      Reached script (items ++ (itemsFrom c).1) (itemsFrom c).2 := by
  induction turns generalizing items c with
  | zero =>
      have hrest := List.eq_nil_of_length_eq_zero (Nat.le_zero.1 hturns)
      rw [itemsFrom_of_none (Reading.next?_eq_none_iff.2 hrest), List.append_nil]
      exact ⟨loop_of_rest_eq_nil 0 hrest, h⟩
  | succ turns ih =>
      cases hnext : Reading.next? c with
      | none =>
          rw [itemsFrom_of_none hnext, List.append_nil]
          exact ⟨loop_of_rest_eq_nil _ (Reading.next?_eq_none_iff.1 hnext), h⟩
      | some found =>
          obtain ⟨reading, after⟩ := found
          have hshorter := Reading.length_rest_next? hnext
          have hgoes : c.atEnd ≠ true := by
            intro hend
            rw [Reading.next?_eq_none_iff.2 (List.isEmpty_iff.1 hend)] at hnext
            contradiction
          rw [itemsFrom_of_some hnext, loop, if_neg hgoes, h.turn_eq hnext, ok_bind,
            ← List.append_assoc]
          exact ih (h.step hnext) (by omega)

theorem checkedScan_eq (script : List Char) :
    Checked.scan script = .ok ((ofText script).items, (ofText script).endToken) := by
  obtain ⟨hloop, hlast⟩ := Reached.start.loop_eq (Nat.le_refl script.length)
  rw [Checked.scan, hloop, ok_bind]
  dsimp only
  rw [token_eq rfl, offset_eq hlast.isPlaced]
  rfl

end

structure RunsSafely (source : String) : Prop where
  turn : ∀ items c, Reached source.toList items c → c.rest ≠ [] →
    ∃ text items' c', text ≠ [] ∧ c.rest = text ++ c'.rest ∧
      Checked.turn source.toList items c = .ok (items', c') ∧ Reached source.toList items' c'
  /-- Between turns the cursor stands between two characters of the source, with its lexeme
  before it. -/
  place : ∀ items c, Reached source.toList items c → c.IsPlaced source.toList
  line : ∀ items c, Reached source.toList items c → c.line ≤ source.utf8ByteSize + 1
  /-- The checked scan comes to its end in as many turns as the source has characters, and
  finds what the scan finds. -/
  ends : Checked.scan source.toList = .ok ((scan source).items, (scan source).endToken)

/-- No check of a scan ever fails, and every scan ends. -/
theorem runsSafely (source : String) : RunsSafely source where
  turn items c h hrest := by
    obtain ⟨⟨reading, after⟩, hnext⟩ :=
      Option.ne_none_iff_exists'.1 (mt Reading.next?_eq_none_iff.1 hrest)
    obtain ⟨text, rest, hlexeme, -, htext, rfl⟩ := Reading.next?_eq_some_iff.1 hnext
    exact ⟨text, _, _, hlexeme.ne_nil, htext, h.turn_eq hnext, h.step hnext⟩
  place items c h := h.isPlaced
  line items c h := by
    have hroom := h.hasRoom
    rw [Checked.HasRoom, Text.byteLength_toList] at hroom
    omega
  ends := checkedScan_eq source.toList

end Scan

end ScriptLexer
