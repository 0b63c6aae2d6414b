import ScriptLexer.Proofs.Appending
import ScriptLexer.Proofs.Resumption
import ScriptLexer.Proofs.Tiling

/-!
What a script leaves open. A string or a comment without an end reaches to the end of
the script, since any character would still belong to it; so there is one at most, and
it is the last piece. Closing it changes this piece alone: the ones before it stop at its
first character as they did, and nothing goes on behind the closing mark, so whatever
comes next is scanned as if nothing stood before it.
-/

namespace ScriptLexer

def Fault.Kind.isUnterminated : Fault.Kind → Bool
  | unterminatedString | unterminatedComment => true
  | _ => false

/-! ### Texts that are left open -/

namespace Lexeme

theorem eq_of_unterminatedString {text : List Char}
    (h : Lexeme text (.fault .unterminatedString)) :
    ∃ quote ∈ quotes, ∃ body, quote ∉ body ∧ text = quote :: body := by
  cases h with
  | openString hquote hbody => exact ⟨_, hquote, _, hbody, rfl⟩

theorem eq_of_unterminatedComment {text : List Char}
    (h : Lexeme text (.fault .unterminatedComment)) :
    ∃ body, ¬ commentEnd <:+: body ∧ text = '/' :: '*' :: body := by
  cases h with
  | openComment hbody => exact ⟨_, hbody, rfl⟩

section

variable {text : List Char} {kind : Fault.Kind} (h : Lexeme text (.fault kind))
  (hkind : kind.isUnterminated = true)

include h hkind

theorem exists_of_unterminated (x : Char) : ∃ reading, Lexeme (text ++ [x]) reading := by
  cases kind with
  | unterminatedString =>
      obtain ⟨quote, hquote, body, hbody, rfl⟩ := eq_of_unterminatedString h
      exact exists_of_openString hquote hbody x
  | unterminatedComment =>
      obtain ⟨body, hbody, rfl⟩ := eq_of_unterminatedComment h
      exact exists_of_openComment hbody x
  | _ => contradiction

theorem settles_of_unterminated : Settles text := by
  refine ⟨h.ne_nil, ?_⟩
  rintro rfl
  cases kind with
  | unterminatedString =>
      obtain ⟨quote, hquote, body, _, htext⟩ := eq_of_unterminatedString h
      obtain ⟨rfl, rfl⟩ := List.cons.inj htext
      exact absurd hquote (by decide)
  | unterminatedComment =>
      obtain ⟨body, _, htext⟩ := eq_of_unterminatedComment h
      simp at htext
  | _ => contradiction

end

theorem measure_quote {quote : Char} (h : quote ∈ quotes) :
    quote.utf8Size = 1 ∧ Text.lineFeeds [quote] = 0 := by
  have hall : quotes.all (fun c => c.utf8Size == 1 && Text.lineFeeds [c] == 0) = true := by decide
  simpa using List.all_eq_true.1 hall quote h

end Lexeme

namespace Scan

/-! ### The last piece -/

theorem IsCut.eq_nil_of_unterminated {p : Piece} {after : List Piece} {kind : Fault.Kind}
    (h : IsCut (p :: after)) (hreading : p.reading = .fault kind)
    (hkind : kind.isUnterminated = true) : after = [] := by
  cases h with
  | cons hlexeme hstops hafter =>
      rw [hreading] at hlexeme
      exact eq_nil_of_textOf_eq_nil hafter
        (hstops.eq_nil (Lexeme.exists_of_unterminated hlexeme hkind))

/-- The last piece `p` of the script is left open, and `f` says so. -/
structure LeavesOpen (script : List Char) (f : Fault) (before : List Piece) (p : Piece) :
    Prop where
  isCut : IsCut (before ++ [p])
  text : textOf before ++ p.text = script
  covers : Covers (.fault f) (textOf before) p
  kind : f.kind.isUnterminated = true

theorem exists_leavesOpen {script : List Char} {f : Fault} (hf : f ∈ (ofText script).faults)
    (hkind : f.kind.isUnterminated = true) : ∃ before p, LeavesOpen script f before p := by
  obtain ⟨ps, hps, rfl⟩ := exists_isCut script
  rw [mem_faults_iff, ofText_textOf hps] at hf
  obtain ⟨before, p, after, rfl, hitem⟩ := mem_itemsAt_iff.1 hf
  have hreading := Piece.reading_of_item?_eq_fault hitem
  obtain rfl := hps.of_append.eq_nil_of_unterminated hreading hkind
  rw [Nat.zero_add] at hitem
  exact ⟨before, p, hps, by simp, ⟨hitem, hps.lexeme (by simp)⟩, hkind⟩

namespace LeavesOpen

section

variable {script : List Char} {f : Fault} {before : List Piece} {p : Piece}
  (h : LeavesOpen script f before p)

include h

theorem lexeme : Lexeme p.text (.fault f.kind) := by
  rw [← Piece.reading_of_item?_eq_fault h.covers.item?_eq]
  exact h.covers.lexeme

theorem items : (ofText script).items = itemsAt 0 1 before ++ [.fault f] := by
  have htext : textOf (before ++ [p]) = script := by simp [h.text]
  rw [← htext, ofText_textOf h.isCut, itemsAt_append, Nat.zero_add, itemsAt, h.covers.item?_eq]
  rfl

theorem isUnterminated_eq_false {f' : Fault}
    (hf' : f' ∈ (itemsAt 0 1 before).filterMap Item.fault?) : f'.kind.isUnterminated = false := by
  by_contra hkind
  obtain ⟨item, hitem, hview⟩ := List.mem_filterMap.1 hf'
  rw [Item.fault?_eq_some_iff.1 hview] at hitem
  obtain ⟨first, q, between, hbefore, hitem⟩ := mem_itemsAt_iff.1 hitem
  have hcut := h.isCut
  rw [hbefore, List.append_assoc] at hcut
  have hnil := hcut.of_append.eq_nil_of_unterminated (Piece.reading_of_item?_eq_fault hitem)
    (eq_true_of_ne_false hkind)
  simp at hnil

theorem holdsAt : HoldsAt script f.span p.text := by
  have hholds : HoldsAt (textOf before ++ p.text ++ []) f.span p.text := h.covers.holdsAt
  rw [List.append_nil, h.text] at hholds
  exact hholds

theorem stop : f.span.stop = Text.byteLength script := by
  rw [← h.text, Text.byteLength_append, Span.stop, show f.span = _ from h.covers.span]

end

end LeavesOpen

/-! ### Closing it -/

/-- `closed` is the piece `p` with `closing` behind it, and is not made longer by anything
that comes next. -/
structure Piece.Closes (p : Piece) (closing : List Char) (closed : Piece) : Prop where
  text : closed.text = p.text ++ closing
  lexeme : Lexeme closed.text closed.reading
  stops (rest : List Char) : Lexeme.Stops closed.text rest

theorem closes_string {quote : Char} {body : List Char} {p : Piece}
    (hquote : quote ∈ Lexeme.quotes) (hbody : quote ∉ body) (hp : p.text = quote :: body) :
    p.Closes (String.singleton quote).toList
      ⟨quote :: (body ++ [quote]), .token .string (some (.text (String.ofList body)))⟩ where
  text := by simp [hp]
  lexeme := .string hquote hbody
  stops := Lexeme.stops_string hquote hbody

theorem closes_comment {body : List Char} {p : Piece} (hbody : ¬ Lexeme.commentEnd <:+: body)
    (hp : p.text = '/' :: '*' :: body) :
    p.Closes Lexeme.commentEnd ⟨'/' :: '*' :: (body ++ Lexeme.commentEnd), .skipped⟩ where
  text := by simp [hp]
  lexeme := .blockComment (Lexeme.closedBy_iff.2 hbody)
  stops := Lexeme.stops_blockComment (Lexeme.closedBy_iff.2 hbody)

namespace LeavesOpen

section

variable {script closing : List Char} {f : Fault} {before : List Piece} {p closed : Piece}
  (h : LeavesOpen script f before p) (hcloses : p.Closes closing closed)

include h hcloses

theorem isCut_closed {after : List Piece} (hafter : IsCut after) :
    IsCut (before ++ closed :: after) := by
  have hsettles : Lexeme.Settles (textOf [p]) := by
    simpa using Lexeme.settles_of_unterminated h.lexeme h.kind
  have htext : textOf (closed :: after) = textOf [p] ++ (closing ++ textOf after) := by
    simp [hcloses.text]
  exact h.isCut.append_of_settles hsettles (.cons hcloses.lexeme (hcloses.stops _) hafter) htext

theorem items_closed (more : List Char) :
    (ofText (script ++ closing ++ more)).items =
      itemsAt 0 1 before ++ (closed.item? f.span.offset f.line).toList ++
        (ofText more).items.map (Item.shift (Text.byteLength (script ++ closing))
          (Text.lineFeeds (script ++ closing))) := by
  obtain ⟨after, hafter, rfl⟩ := exists_isCut more
  have hcut : IsCut ((before ++ [closed]) ++ after) := by
    simpa using h.isCut_closed hcloses hafter
  have htext : textOf (before ++ [closed]) = script ++ closing := by
    simp [hcloses.text, ← h.text]
  have hplace : f.span.offset = Text.byteLength (textOf before) ∧
      f.line = 1 + Text.lineFeeds (textOf before) :=
    ⟨congrArg Span.offset h.covers.span, h.covers.line⟩
  have hclosed := ofText_textOf hcut.of_append_left
  rw [itemsAt_append, Nat.zero_add, itemsAt, itemsAt, List.append_nil] at hclosed
  rw [← htext, ofText_append hcut, hclosed, hplace.1, hplace.2]

end

end LeavesOpen

theorem endToken_append (a b : String) :
    (scan (a ++ b)).endToken =
      (scan b).endToken.shift a.utf8ByteSize (Text.lineFeeds a.toList) := by
  simp only [scan, endToken_ofText, Token.shift, String.toList_append, Text.lineFeeds_append,
    Text.byteLength_append, Text.byteLength_toList, Nat.add_comm, Nat.add_left_comm]

/-- Behind `source`, a closing mark of so many bytes puts `closed` in the place of the
fault `f`, and any text behind the mark is scanned as it would be on its own. -/
structure Mends (source closing : String) (bytes : Nat) (f : Fault)
    (earlier closed : List Item) : Prop where
  items (more : String) : (scan (source ++ closing ++ more)).items =
    earlier ++ closed ++ (scan more).items.map
      (Item.shift (source.utf8ByteSize + bytes) (Text.lineFeeds source.toList))
  endToken (more : String) : (scan (source ++ closing ++ more)).endToken =
    (scan more).endToken.shift (source.utf8ByteSize + bytes) (Text.lineFeeds source.toList)
  faults (more : String) : (scan (source ++ closing ++ more)).faults =
    earlier.filterMap Item.fault? ++ (scan more).faults.map
      (Fault.shift (source.utf8ByteSize + bytes) (Text.lineFeeds source.toList))
  not_mem (more : String) : f ∉ (scan (source ++ closing ++ more)).faults

/-- The scan of `source` ends with `f`, and `earlier` is all that comes before it. -/
structure EndsOpen (source : String) (f : Fault) (earlier : List Item) : Prop where
  items : (scan source).items = earlier ++ [.fault f]
  faults : (scan source).faults = earlier.filterMap Item.fault? ++ [f]
  stop : f.span.stop = source.utf8ByteSize
  item_lt : ∀ item ∈ earlier, item.span.offset < f.span.offset
  token_lt : ∀ t ∈ (scan source).properTokens, t.span.offset < f.span.offset

namespace LeavesOpen

section

variable {source : String} {f : Fault} {before : List Piece} {p : Piece}
  (h : LeavesOpen source.toList f before p)

include h

theorem faults : (scan source).faults = (itemsAt 0 1 before).filterMap Item.fault? ++ [f] := by
  rw [Scan.faults, scan, h.items, List.filterMap_append]
  rfl

theorem filter_faults : (scan source).faults.filter (fun f => f.kind.isUnterminated) = [f] := by
  have hearlier : ((itemsAt 0 1 before).filterMap Item.fault?).filter
      (fun f => f.kind.isUnterminated) = [] := by
    rw [List.filter_eq_nil_iff]
    intro f' hf'
    simp [h.isUnterminated_eq_false hf']
  have hlast : [f].filter (fun f => f.kind.isUnterminated) = [f] := by simp [h.kind]
  rw [h.faults, List.filter_append, hearlier, hlast, List.nil_append]

theorem endsOpen : EndsOpen source f (itemsAt 0 1 before) := by
  have hlt : ∀ item ∈ itemsAt 0 1 before, item.span.offset < f.span.offset := by
    have hpairwise := items_pairwise_offset_lt source.toList
    rw [h.items] at hpairwise
    intro item hitem
    exact (List.pairwise_append.1 hpairwise).2.2 item hitem (.fault f) (List.mem_singleton_self _)
  refine ⟨h.items, h.faults, h.stop.trans (Text.byteLength_toList source), hlt, ?_⟩
  intro t ht
  rw [mem_properTokens_iff, scan, h.items] at ht
  rcases List.mem_append.1 ht with ht | ht
  · exact hlt _ ht
  · simp at ht

theorem mends {closing : String} {bytes : Nat} {closed : Piece} {items : List Item}
    (hcloses : p.Closes closing.toList closed)
    (hitems : (closed.item? f.span.offset f.line).toList = items)
    (hfaults : items.filterMap Item.fault? = []) (hbytes : closing.utf8ByteSize = bytes)
    (hlines : Text.lineFeeds closing.toList = 0) :
    Mends source closing bytes f (itemsAt 0 1 before) items := by
  have hmended (more : String) : (scan (source ++ closing ++ more)).items =
      itemsAt 0 1 before ++ items ++ (scan more).items.map
        (Item.shift (source.utf8ByteSize + bytes) (Text.lineFeeds source.toList)) := by
    rw [scan, String.toList_append, String.toList_append, h.items_closed hcloses, hitems,
      Text.byteLength_append, Text.byteLength_toList, Text.byteLength_toList, hbytes,
      Text.lineFeeds_append, hlines]
    rfl
  have hearlier (more : String) : (scan (source ++ closing ++ more)).faults =
      (itemsAt 0 1 before).filterMap Item.fault? ++ (scan more).faults.map
        (Fault.shift (source.utf8ByteSize + bytes) (Text.lineFeeds source.toList)) := by
    rw [Scan.faults, hmended, List.filterMap_append, List.filterMap_append, hfaults,
      List.append_nil, filterMap_fault?_shift]
    rfl
  refine ⟨hmended, ?_, hearlier, ?_⟩
  · intro more
    rw [endToken_append, String.utf8ByteSize_append, hbytes, String.toList_append,
      Text.lineFeeds_append, hlines, Nat.add_zero]
  · intro more hmem
    rw [hearlier] at hmem
    rcases List.mem_append.1 hmem with hmem | hmem
    · have hclosed := h.isUnterminated_eq_false hmem
      rw [h.kind] at hclosed
      contradiction
    · -- A fault behind the mark begins where `source` has already ended.
      obtain ⟨f', _, hf'⟩ := List.mem_map.1 hmem
      have hstop : f.span.stop = source.utf8ByteSize :=
        h.stop.trans (Text.byteLength_toList source)
      have hpos : 0 < f.span.length := h.covers.length_pos
      have hoffset : f'.span.offset + (source.utf8ByteSize + bytes) = f.span.offset := by
        rw [← hf']
        rfl
      rw [Span.stop] at hstop
      omega

theorem mends_string (hkind : f.kind = .unterminatedString) :
    ∃ quote ∈ Lexeme.quotes, ∃ body, HoldsAt source.toList f.span (quote :: body) ∧
      Mends source (String.singleton quote) 1 f (itemsAt 0 1 before)
        [.token ⟨.string, String.ofList (quote :: (body ++ [quote])),
          some (.text (String.ofList body)), f.line, ⟨f.span.offset, f.span.length + 1⟩⟩] := by
  have hlexeme := h.lexeme
  rw [hkind] at hlexeme
  obtain ⟨quote, hquote, body, hbody, hp⟩ := Lexeme.eq_of_unterminatedString hlexeme
  obtain ⟨hsize, hlines⟩ := Lexeme.measure_quote hquote
  have hlength : Text.byteLength (quote :: (body ++ [quote])) = f.span.length + 1 := by
    rw [show f.span = _ from h.covers.span, hp, ← List.cons_append, Text.byteLength_append,
      Text.byteLength_cons quote [], hsize, Text.byteLength_nil]
  refine ⟨quote, hquote, body, hp ▸ h.holdsAt,
    h.mends (closes_string hquote hbody hp) ?_ rfl ?_ ?_⟩
  · rw [← hlength]
    rfl
  · rw [String.utf8ByteSize_singleton, hsize]
  · rw [String.toList_singleton, hlines]

theorem mends_comment (hkind : f.kind = .unterminatedComment) :
    Mends source "*/" 2 f (itemsAt 0 1 before) [] := by
  have hlexeme := h.lexeme
  rw [hkind] at hlexeme
  obtain ⟨body, hbody, hp⟩ := Lexeme.eq_of_unterminatedComment hlexeme
  exact h.mends (closes_comment hbody hp) rfl rfl rfl rfl

end

end LeavesOpen

theorem length_filter_isUnterminated_le (source : String) :
    ((scan source).faults.filter fun f => f.kind.isUnterminated).length ≤ 1 := by
  by_cases hopen : ∃ f ∈ (scan source).faults, f.kind.isUnterminated = true
  · obtain ⟨f, hf, hkind⟩ := hopen
    obtain ⟨before, p, h⟩ := exists_leavesOpen hf hkind
    rw [h.filter_faults]
    exact Nat.le_refl 1
  · have hnone : (scan source).faults.filter (fun f => f.kind.isUnterminated) = [] := by
      rw [List.filter_eq_nil_iff]
      intro f hf hkind
      exact hopen ⟨f, hf, hkind⟩
    rw [hnone]
    exact Nat.zero_le 1

/-- Of what has no end there is one at most, and it comes last. With its closing mark
behind it, a string becomes a token and a comment becomes nothing. -/
theorem scan_unterminated (source : String) :
    ((scan source).faults.filter fun f => f.kind.isUnterminated).length ≤ 1 ∧
      ∀ f ∈ (scan source).faults, f.kind.isUnterminated = true →
        ∃ earlier, EndsOpen source f earlier ∧
          (f.kind = .unterminatedString →
            ∃ quote ∈ Lexeme.quotes, ∃ body, HoldsAt source.toList f.span (quote :: body) ∧
              Mends source (String.singleton quote) 1 f earlier
                [.token ⟨.string, String.ofList (quote :: (body ++ [quote])),
                  some (.text (String.ofList body)), f.line,
                  ⟨f.span.offset, f.span.length + 1⟩⟩]) ∧
          (f.kind = .unterminatedComment → Mends source "*/" 2 f earlier []) := by
  refine ⟨length_filter_isUnterminated_le source, ?_⟩
  intro f hf hkind
  obtain ⟨before, p, h⟩ := exists_leavesOpen hf hkind
  exact ⟨itemsAt 0 1 before, h.endsOpen, h.mends_string, h.mends_comment⟩

/-- A comment that ends in a star, behind another fault, and a string that holds the start
of a comment and a line feed. -/
theorem scan_unterminated_star :
    let comment : Fault := ⟨.unterminatedComment, 2, ⟨2, 6⟩⟩
    let string : Fault := ⟨.unterminatedString, 1, ⟨2, 4⟩⟩
    comment ∈ (scan "@\n/* a\n*").faults ∧ string ∈ (scan "1.'/*\n").faults ∧
      (∃ earlier, EndsOpen "@\n/* a\n*" comment earlier ∧
        Mends "@\n/* a\n*" "*/" 2 comment earlier []) ∧
      ∃ earlier, EndsOpen "1.'/*\n" string earlier ∧
        ∃ quote ∈ Lexeme.quotes, ∃ body,
          HoldsAt "1.'/*\n".toList string.span (quote :: body) ∧
          Mends "1.'/*\n" (String.singleton quote) 1 string earlier
            [.token ⟨.string, String.ofList (quote :: (body ++ [quote])),
              some (.text (String.ofList body)), 1, ⟨2, 5⟩⟩] := by
  intro comment string
  have hcomment : comment ∈ (scan "@\n/* a\n*").faults := by decide +kernel
  have hstring : string ∈ (scan "1.'/*\n").faults := by decide +kernel
  refine ⟨hcomment, hstring, ?_, ?_⟩
  · obtain ⟨earlier, hopen, -, hmends⟩ := (scan_unterminated _).2 comment hcomment rfl
    exact ⟨earlier, hopen, hmends rfl⟩
  · obtain ⟨earlier, hopen, hmends, -⟩ := (scan_unterminated _).2 string hstring rfl
    exact ⟨earlier, hopen, hmends rfl⟩

end Scan

end ScriptLexer
