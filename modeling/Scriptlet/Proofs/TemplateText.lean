import Mathlib.Tactic.Common
import Scriptlet.Proofs.Chaining
import Scriptlet.Proofs.Positions

/-!
# Templates keep their text

A template is read into plain texts and spans, and its text is not kept beside them. The ranges of
the spans are counted in bytes, so they have to meet the characters of the text that was read, with
spans that touch, with dollar signs and braces that belong to no span, and with characters of any
length. Evaluation then gives that text back, with values in the place of the spans.

* `Text.slice?` takes a part out of a text, and fails between the bytes of a character;
* `Spanned` says how spans stand in a text, and `Grammar.Pieces` how a text is cut into them;
* `replaced` puts texts in the place of ranges of a text, by slices;
* `templates_keep_text`: the ranges of a template fit its text, the slices at them never fail, and
  evaluation gives what they are replaced with.
-/

namespace Scriptlet

open Eval
open Text (byteLength)

/-! ## Slices of a text -/

namespace Text

/-- The part of a text between two byte offsets. There is none if the offsets are in the wrong
order, beyond the text or inside of a character. -/
def slice? (text : String) (start stop : Nat) : Option String :=
  if start ≤ stop ∧ String.Pos.Raw.isValid text ⟨start⟩ ∧ String.Pos.Raw.isValid text ⟨stop⟩ then
    some (String.Pos.Raw.extract text ⟨start⟩ ⟨stop⟩)
  else
    none

theorem extract_append (before part after : String) :
    String.Pos.Raw.extract (before ++ part ++ after) ⟨before.utf8ByteSize⟩
      ⟨before.utf8ByteSize + part.utf8ByteSize⟩ = part := by
  have valid := String.extract_of_valid before.toList part.toList after.toList
  simpa [String.append_assoc] using valid

/-- Two cuts through one text, the first of them before the second. -/
theorem eq_append_of_cuts {first rest first' rest' : String}
    (same : first ++ rest = first' ++ rest')
    (before : first.utf8ByteSize ≤ first'.utf8ByteSize) :
    ∃ part, first' = first ++ part ∧ rest = part ++ rest' := by
  have chars := congrArg String.toList same
  rw [String.toList_append, String.toList_append] at chars
  rcases List.append_eq_append_iff.mp chars with ⟨part, left, right⟩ | ⟨part, left, right⟩
  · refine ⟨String.ofList part, ?_, ?_⟩ <;> apply String.toList_injective <;> simp [left, right]
  · -- the second cut is not before the first, so nothing is between them
    obtain rfl : part = [] := by
      have sizes := congrArg String.utf8ByteSize (congrArg String.ofList left)
      rw [String.ofList_append, String.utf8ByteSize_append, String.ofList_toList,
        String.ofList_toList] at sizes
      have none : (String.ofList part).utf8ByteSize = 0 := by omega
      simpa using String.utf8ByteSize_eq_zero_iff.mp none
    refine ⟨"", ?_, ?_⟩ <;> apply String.toList_injective <;> simp_all

theorem slice?_eq_some_iff {text part : String} {start stop : Nat} :
    slice? text start stop = some part ↔
      ∃ before after, text = before ++ part ++ after ∧ start = before.utf8ByteSize ∧
        stop = start + part.utf8ByteSize := by
  unfold slice?
  constructor
  · intro found
    split at found
    · next valid =>
      obtain ⟨inOrder, atStart, atStop⟩ := valid
      obtain ⟨before, rest, rfl, begins⟩ := String.Pos.Raw.isValid_iff_exists_append.mp
        (String.Pos.Raw.isValid_eq_true_iff.mp atStart)
      obtain ⟨upTo, after, same, ends⟩ := String.Pos.Raw.isValid_iff_exists_append.mp
        (String.Pos.Raw.isValid_eq_true_iff.mp atStop)
      obtain rfl : start = before.utf8ByteSize := congrArg String.Pos.Raw.byteIdx begins
      obtain rfl : stop = upTo.utf8ByteSize := congrArg String.Pos.Raw.byteIdx ends
      obtain ⟨middle, rfl, rfl⟩ := eq_append_of_cuts same inOrder
      rw [String.utf8ByteSize_append, ← String.append_assoc, extract_append] at found
      obtain rfl := Option.some.inj found
      exact ⟨before, after, String.append_assoc.symm, rfl, String.utf8ByteSize_append⟩
    · cases found
  · rintro ⟨before, after, rfl, rfl, rfl⟩
    rw [if_pos, extract_append]
    refine ⟨Nat.le_add_right _ _, ?_, ?_⟩
    · exact String.Pos.Raw.isValid_eq_true_iff.mpr (String.Pos.Raw.isValid_iff_exists_append.mpr
        ⟨before, part ++ after, String.append_assoc, rfl⟩)
    · refine String.Pos.Raw.isValid_eq_true_iff.mpr (String.Pos.Raw.isValid_iff_exists_append.mpr
        ⟨before ++ part, after, rfl, ?_⟩)
      exact congrArg String.Pos.Raw.mk String.utf8ByteSize_append.symm

theorem slice?_valid {text part : String} {start stop : Nat}
    (found : slice? text start stop = some part) :
    stop ≤ text.utf8ByteSize ∧ String.Pos.Raw.IsValid text ⟨start⟩ ∧
      String.Pos.Raw.IsValid text ⟨stop⟩ := by
  unfold slice? at found
  split at found
  · next valid =>
    obtain ⟨-, atStart, atStop⟩ := valid
    have within := String.Pos.Raw.isValid_eq_true_iff.mp atStop
    exact ⟨within.le_rawEndPos, String.Pos.Raw.isValid_eq_true_iff.mp atStart, within⟩
  · cases found

end Text

open Text (slice? slice?_eq_some_iff)

/-! ## Ranges of spans -/

/-- The text of a template from its first span on. -/
def spansText (spans : List Span) : String :=
  String.join (spans.map fun span => span.text ++ span.after)

theorem spansText_cons (span : Span) (rest : List Span) :
    spansText (span :: rest) = span.text ++ span.after ++ spansText rest := by
  simp [spansText]

/-- The spans are what stands in their ranges, whatever stands before them. -/
theorem slices_spanRanges (before : String) (spans : List Span) :
    List.Forall₂ (fun span range =>
        slice? (before ++ spansText spans) range.1 range.2 = some span.text) spans
      (spanRanges before.utf8ByteSize spans) := by
  induction spans generalizing before with
  | nil => exact .nil
  | cons span rest ih =>
    refine .cons (slice?_eq_some_iff.mpr ⟨before, span.after ++ spansText rest, ?_, rfl, rfl⟩) ?_
    · rw [spansText_cons]
      simp only [String.append_assoc]
    · have later := ih (before ++ span.text ++ span.after)
      rw [String.utf8ByteSize_append, String.utf8ByteSize_append] at later
      rw [spansText_cons]
      simpa only [String.append_assoc] using later

theorem Span.text_size_pos (span : Span) : 0 < span.text.utf8ByteSize := by
  have opening : "$\x7b".utf8ByteSize = 2 := rfl
  rw [Span.text, String.utf8ByteSize_append, String.utf8ByteSize_append]
  omega

theorem spanRanges_from {offset : Nat} {spans : List Span} :
    ∀ range ∈ spanRanges offset spans, offset ≤ range.1 ∧ range.1 < range.2 := by
  induction spans generalizing offset with
  | nil => nofun
  | cons span rest ih =>
    have some := span.text_size_pos
    refine List.forall_mem_cons.mpr ⟨⟨Nat.le_refl _, ?_⟩, fun range member => ?_⟩
    · exact Nat.lt_add_of_pos_right some
    · have later := ih range member
      omega

theorem spanRanges_ordered (offset : Nat) (spans : List Span) :
    (spanRanges offset spans).Pairwise fun first second => first.2 ≤ second.1 := by
  induction spans generalizing offset with
  | nil => exact .nil
  | cons span rest ih =>
    refine .cons (fun range member => ?_) (ih _)
    have later := spanRanges_from range member
    omega

/-! ## Replacing ranges -/

/-- A text from a byte offset on, with texts in the place of ranges of it. It is put together
from slices of the text, so there is none if one of them fails. -/
def replaced (raw : String) (offset : Nat) : List (Nat × Nat) → List String → Option String
  | [], [] => slice? raw offset raw.utf8ByteSize
  | (start, stop) :: ranges, text :: texts => do
    let plain ← slice? raw offset start
    let rest ← replaced raw stop ranges texts
    return plain ++ text ++ rest
  | _, _ => none

/-- The text of a template from its first span on, with texts in the place of its spans. -/
def filled : List Span → List String → String
  | span :: spans, text :: texts => text ++ span.after ++ filled spans texts
  | _, _ => ""

/-- No slice fails if there is a text for each span. -/
theorem replaced_spans (before head : String) {spans : List Span} {texts : List String}
    (each : texts.length = spans.length) :
    replaced (before ++ head ++ spansText spans) before.utf8ByteSize
      (spanRanges (before ++ head).utf8ByteSize spans) texts =
        some (head ++ filled spans texts) := by
  induction spans generalizing before head texts with
  | nil =>
    obtain rfl := List.length_eq_zero_iff.mp each
    refine slice?_eq_some_iff.mpr ⟨before, "", ?_, rfl, ?_⟩ <;> simp [spansText, filled]
  | cons span rest ih =>
    obtain ⟨text, texts, rfl⟩ := List.exists_cons_of_length_eq_add_one each
    have plain : slice? (before ++ head ++ spansText (span :: rest)) before.utf8ByteSize
        (before ++ head).utf8ByteSize = some head :=
      slice?_eq_some_iff.mpr ⟨before, spansText (span :: rest), rfl, rfl, by simp⟩
    have later := ih (before ++ head ++ span.text) span.after (Nat.succ.inj each)
    rw [spansText_cons] at plain ⊢
    simp only [String.append_assoc, String.utf8ByteSize_append] at plain later ⊢
    simp only [replaced, spanRanges, plain, Nat.add_assoc, later, filled, String.append_assoc]
    rfl

/-! ## Evaluation -/

/-- Whether spans evaluate, from left to right, to values; each comes with the store in which it
is shown. -/
inductive Shows (call : Call) (scope : FrameId) :
    Machine → List Span → List (Value × Store) → Machine → Prop where
  | nil (machine : Machine) : Shows call scope machine [] [] machine
  | cons {machine next after : Machine} {span : Span} {spans : List Span} {value : Value}
    {values : List (Value × Store)}
    (evaluates : evalExpr call scope span.expr machine = .ok value next)
    (more : Shows call scope next spans values after) :
    Shows call scope machine (span :: spans) ((value, next.store) :: values) after

/-- The texts of values, each as its store shows it. -/
def shownTexts (values : List (Value × Store)) : List String :=
  values.map fun (value, store) => store.display value

section

variable {call : Call} {scope : FrameId} {machine after : Machine} {spans : List Span}

theorem Shows.length_eq {values : List (Value × Store)}
    (shows : Shows call scope machine spans values after) :
    (shownTexts values).length = spans.length := by
  induction shows with
  | nil => rfl
  | cons _ _ ih => exact congrArg (· + 1) ih

/-- The value of one span is shown before the next span is evaluated. -/
theorem evalSpans_cons (span : Span) (spans : List Span) :
    evalSpans call scope (span :: spans) = do
      let text ← display (← evalExpr call scope span.expr)
      return text ++ span.after ++ (← evalSpans call scope spans) := by
  obtain ⟨source, expr, trailing⟩ := span
  simp only [evalSpans]

theorem Shows.evalSpans {values : List (Value × Store)}
    (shows : Shows call scope machine spans values after) :
    evalSpans call scope spans machine = .ok (filled spans (shownTexts values)) after := by
  induction shows with
  | nil => rfl
  | @cons machine next after span spans value values evaluates more ih =>
    rw [evalSpans_cons, bind_of_ok evaluates]
    have shown : display value next = .ok (next.store.display value) next := rfl
    rw [bind_of_ok shown, bind_of_ok ih]
    rfl

theorem shows_of_evalSpans {text : String}
    (evaluates : evalSpans call scope spans machine = .ok text after) :
    ∃ values, Shows call scope machine spans values after := by
  induction spans generalizing machine text with
  | nil =>
    cases evaluates
    exact ⟨[], .nil _⟩
  | cons span spans ih =>
    rw [evalSpans_cons] at evaluates
    obtain ⟨value, next, first, evaluates⟩ := bind_eq_ok evaluates
    obtain ⟨shown, next', same, evaluates⟩ := bind_eq_ok evaluates
    cases same
    obtain ⟨rest, after', others, last⟩ := bind_eq_ok evaluates
    cases last
    obtain ⟨values, shows⟩ := ih others
    exact ⟨_, .cons first shows⟩

end

/-! ## Reading -/

namespace Grammar

theorem splitOpening_eq_none {text : List Char} (none : splitOpening text = none)
    (before after : List Char) : text ≠ before ++ '$' :: '\x7b' :: after := by
  induction text generalizing before with
  | nil => simp
  | cons char rest ih =>
    rw [splitOpening] at none
    split at none
    · cases none
    · next other =>
      cases before with
      | nil =>
        intro opens
        obtain ⟨rfl, rfl⟩ := List.cons.inj opens
        exact other rfl
      | cons first before =>
        intro opens
        exact ih (Option.map_eq_none_iff.mp none) before (List.cons.inj opens).2

/-- The text is split where the first span is opened. -/
theorem splitOpening_first {text before after : List Char}
    (found : splitOpening text = some (before, after)) {first rest : List Char}
    (opens : text = first ++ '$' :: '\x7b' :: rest) : before.length ≤ first.length := by
  induction text generalizing before first with
  | nil => cases found
  | cons char text ih =>
    rw [splitOpening] at found
    split at found
    · cases found
      exact Nat.zero_le _
    · next other =>
      obtain ⟨⟨before, _⟩, found, same⟩ := Option.map_eq_some_iff.mp found
      cases same
      cases first with
      | nil =>
        obtain ⟨rfl, rfl⟩ := List.cons.inj opens
        exact (other rfl).elim
      | cons _ first => exact Nat.succ_le_succ (ih found (List.cons.inj opens).2)

/-- How the text of a template, which begins at byte offset `position`, falls into plain text and
spans. No span is opened in the text before one, a span ends with the first brace that closes it,
and `expr` reads its source. -/
inductive Pieces (expr : Nat → List Char → Except Error Expr) :
    Nat → List Char → List Char → List Span → Prop where
  | plain {position : Nat} {text : List Char}
    (none : ∀ first rest, text ≠ first ++ '$' :: '\x7b' :: rest) :
    Pieces expr position text text []
  | span {position : Nat} {before source rest next : List Char} {value : Expr}
    {spans : List Span}
    (earliest : ∀ {first rest'}, before ++ '$' :: '\x7b' :: (source ++ '\x7d' :: rest) =
      first ++ '$' :: '\x7b' :: rest' → before.length ≤ first.length)
    (closed : '\x7d' ∉ source) (reads : expr (position + byteLength before + 2) source = .ok value)
    (more : Pieces expr (position + byteLength before + 2 + byteLength source + 1) rest next
      spans) :
    Pieces expr position (before ++ '$' :: '\x7b' :: (source ++ '\x7d' :: rest)) before
      (⟨String.ofList source, value, String.ofList next⟩ :: spans)

section

variable {expr : Nat → List Char → Except Error Expr} {position : Nat} {text head : List Char}
  {spans : List Span}

theorem pieces_readSpans {count : Nat} (enough : text.length ≤ count)
    (read : readSpans expr count position text = .ok (head, spans)) :
    Pieces expr position text head spans := by
  induction count generalizing position text head spans with
  | zero =>
    obtain rfl := List.length_eq_zero_iff.mp (Nat.le_zero.mp enough)
    cases read
    exact .plain fun first rest => by simp
  | succ count ih =>
    simp only [readSpans] at read
    split at read
    · next none =>
      cases read
      exact .plain (splitOpening_eq_none none)
    next before after found =>
      have earliest := @splitOpening_first _ _ _ found
      obtain rfl := splitOpening_eq_some found
      split at read
      · cases read
      next closing rest dropped =>
        obtain ⟨same, closes⟩ := Scan.split_dropWhile dropped
        obtain rfl : closing = '\x7d' := by simpa using closes
        have closed : '\x7d' ∉ after.takeWhile (· != '\x7d') := by
          intro member
          simpa using List.mem_takeWhile_imp member
        generalize after.takeWhile (· != '\x7d') = source at same closed read
        subst same
        split at read
        · cases read
        split at read
        · cases read
        next value reads =>
          split at read
          · cases read
          next next spans others =>
            cases read
            refine .span earliest closed reads (ih ?_ others)
            simp only [List.length_append, List.length_cons] at enough
            omega

/-- A span that can be read is the first one of a text where it is opened first. -/
theorem readSpans_span {count : Nat} {before source rest next : List Char} {value : Expr}
    (opened : splitOpening text = some (before, source ++ '\x7d' :: rest))
    (delimited : (source.all fun char => char != '\x7d') && !source.all Text.isWhiteSpace)
    (reads : expr (position + byteLength before + 2) source = .ok value)
    (more : readSpans expr count (position + byteLength before + 2 + byteLength source + 1) rest =
      .ok (next, spans)) :
    readSpans expr (count + 1) position text =
      .ok (before, ⟨String.ofList source, value, String.ofList next⟩ :: spans) := by
  obtain ⟨closed, notBlank⟩ := Bool.and_eq_true_iff.mp delimited
  have closed : ∀ char ∈ source, (char != '\x7d') = true := List.all_eq_true.mp closed
  have taken : (source ++ '\x7d' :: rest).takeWhile (· != '\x7d') = source := by
    simp [List.takeWhile_append_of_pos closed]
  have dropped : (source ++ '\x7d' :: rest).dropWhile (· != '\x7d') = '\x7d' :: rest := by
    simp [List.dropWhile_append_of_pos closed]
  rw [readSpans, opened]
  dsimp only
  rw [dropped, taken]
  dsimp only
  rw [if_neg (by simpa using notBlank), reads]
  dsimp only
  rw [more]

theorem Pieces.ofList_eq (pieces : Pieces expr position text head spans) :
    String.ofList text = String.ofList head ++ spansText spans := by
  induction pieces with
  | plain => simp [spansText]
  | @span _ before source rest next value spans _ _ _ _ ih =>
    have split : before ++ '$' :: '\x7b' :: (source ++ '\x7d' :: rest) =
        before ++ (['$', '\x7b'] ++ (source ++ (['\x7d'] ++ rest))) := rfl
    rw [split, spansText_cons]
    simp only [String.ofList_append, ih, Span.text, String.append_assoc]

theorem Pieces.closed (pieces : Pieces expr position text head spans) :
    ∀ span ∈ spans, '\x7d' ∉ span.source.toList := by
  induction pieces with
  | plain => nofun
  | span _ closed _ _ ih =>
    refine List.forall_mem_cons.mpr ⟨?_, ih⟩
    rw [String.toList_ofList]
    exact closed

theorem span_size (source : List Char) (value : Expr) (after : String) :
    (Span.mk (String.ofList source) value after).text.utf8ByteSize =
      byteLength ('$' :: '\x7b' :: (source ++ ['\x7d'])) := by
  rw [Text.byteLength_eq]
  exact congrArg String.utf8ByteSize (String.toList_injective (by simp [Span.text]))

/-- The range of a span says where its source begins. -/
theorem Pieces.reads {base offset : Nat} (pieces : Pieces expr position text head spans)
    (begins : position = base + offset) :
    List.Forall₂ (fun span range =>
        expr (base + range.1 + 2) span.source.toList = .ok span.expr) spans
      (spanRanges (offset + byteLength head) spans) := by
  induction pieces generalizing offset with
  | plain => exact .nil
  | @span position before source rest next value spans _ _ reads _ ih =>
    refine .cons ?_ ?_
    · rw [String.toList_ofList, ← Nat.add_assoc, ← begins]
      exact reads
    · have passed : position + byteLength before + 2 + byteLength source + 1 =
          base + (offset + byteLength (before ++ '$' :: '\x7b' :: (source ++ ['\x7d']))) := by
        rw [(span_offsets before source position).2.2, begins, Nat.add_assoc, List.append_assoc]
        rfl
      have later := ih passed
      rw [Text.byteLength_eq next] at later
      rw [span_size]
      simpa only [Text.byteLength_append, Nat.add_assoc] using later

/-- Where a span is opened, there is a span: in the plain text none is. -/
theorem Pieces.within (pieces : Pieces expr position text head spans) (offset : Nat)
    {first rest : List Char} (opens : text = first ++ '$' :: '\x7b' :: rest) :
    ∃ range ∈ spanRanges (offset + byteLength head) spans,
      range.1 ≤ offset + byteLength first ∧ offset + byteLength first < range.2 := by
  induction pieces generalizing offset first with
  | plain none => exact (none first rest opens).elim
  | @span _ before source rest' next value spans earliest _ _ _ ih =>
    -- the plain text is over where a span is opened
    obtain ⟨first, rfl⟩ : before <+: first := by
      have whole : before <+: first ++ '$' :: '\x7b' :: rest := opens ▸ List.prefix_append _ _
      exact List.prefix_of_prefix_length_le whole (List.prefix_append _ _) (earliest opens)
    rw [List.append_assoc] at opens
    have opens := List.append_cancel_left opens
    have split : '$' :: '\x7b' :: (source ++ '\x7d' :: rest') =
        '$' :: '\x7b' :: (source ++ ['\x7d']) ++ rest' := by simp
    rw [split] at opens
    rw [spanRanges, span_size, Text.byteLength_append]
    generalize '$' :: '\x7b' :: (source ++ ['\x7d']) = whole at opens ⊢
    by_cases inside : byteLength first < byteLength whole
    · exact ⟨_, List.mem_cons_self, by omega, by omega⟩
    · -- behind the span it is opened in the text that is left
      obtain ⟨later, rfl, same⟩ : ∃ later, first = whole ++ later ∧
          rest' = later ++ '$' :: '\x7b' :: rest := by
        rcases List.append_eq_append_iff.mp opens with found | ⟨others, rfl, same⟩
        · exact found
        · cases others with
          | nil => exact ⟨[], by simp, same.symm⟩
          | cons char others =>
            have := char.utf8Size_pos
            simp only [Text.byteLength_append, Text.byteLength_cons] at inside
            omega
      obtain ⟨range, member, begins, ends⟩ :=
        ih (offset + byteLength before + byteLength whole) same
      rw [Text.byteLength_eq next] at member
      refine ⟨range, List.mem_cons_of_mem _ member, ?_⟩
      rw [Text.byteLength_append]
      omega

end

end Grammar

open Grammar

/-- How a span stands in a range of the text of its template. -/
structure Span.StandsIn (raw : String) (span : Span) (range : Nat × Nat) : Prop where
  inside : range.1 < range.2 ∧ range.2 ≤ raw.utf8ByteSize
  boundaries : String.Pos.Raw.IsValid raw ⟨range.1⟩ ∧ String.Pos.Raw.IsValid raw ⟨range.2⟩
  delimited : slice? raw range.1 range.2 = some ("$\x7b" ++ span.source ++ "\x7d")
  /-- The brace that ends the span is the only one that closes anything in it. -/
  closed : '\x7d' ∉ span.source.toList

/-- How spans stand in the text of their template. -/
structure Spanned (raw : String) (spans : List Span) (ranges : List (Nat × Nat)) : Prop where
  ordered : ranges.Pairwise fun first second => first.2 ≤ second.1
  each : List.Forall₂ (Span.StandsIn raw) spans ranges
  /-- Where a span is opened, one of them stands. -/
  opened : ∀ place, slice? raw place (place + 2) = some "$\x7b" →
    ∃ range ∈ ranges, range.1 ≤ place ∧ place < range.2

theorem Span.standsIn {raw : String} {span : Span} {range : Nat × Nat}
    (closed : '\x7d' ∉ span.source.toList)
    (found : slice? raw range.1 range.2 = some span.text) : span.StandsIn raw range := by
  obtain ⟨stop, boundaries⟩ := Text.slice?_valid found
  obtain ⟨-, -, -, -, size⟩ := slice?_eq_some_iff.mp found
  have some := span.text_size_pos
  exact ⟨⟨by omega, stop⟩, boundaries, found, closed⟩

namespace Grammar

theorem Pieces.spanned {expr : Nat → List Char → Except Error Expr} {position : Nat}
    {text head : List Char} {spans : List Span} (pieces : Pieces expr position text head spans) :
    Spanned (String.ofList text) spans (spanRanges (String.ofList head).utf8ByteSize spans) := by
  constructor
  case ordered => exact spanRanges_ordered _ _
  case each =>
    have slices := slices_spanRanges (String.ofList head) spans
    rw [← pieces.ofList_eq] at slices
    refine ((List.forall₂_and_left _ _).mpr ⟨pieces.closed, slices⟩).imp ?_
    exact fun span range found => Span.standsIn found.1 found.2
  case opened =>
    intro place found
    obtain ⟨before, after, same, rfl, -⟩ := slice?_eq_some_iff.mp found
    have chars : text = before.toList ++ '$' :: '\x7b' :: after.toList := by
      simpa using congrArg String.toList same
    simpa [Text.byteLength_eq] using pieces.within 0 chars

/-- A template that is read consists of the pieces of its text. -/
theorem pieces_template {expr : Nat → List Char → Except Error Expr} {token : Token} {tree : Expr}
    (read : template expr token = .ok tree) :
    ∃ head spans, tree = .template (String.ofList head) spans ∧
      Pieces expr (token.start + 1) token.lexeme.toList head spans := by
  simp only [template] at read
  split at read
  · cases read
  · next head spans found =>
    cases read
    exact ⟨head, spans, rfl, pieces_readSpans (Nat.le_refl _) found⟩

end Grammar

/-- The spans of a template stand in its text in order, each delimited and on boundaries of
characters, and no span is opened outside of them. Each was read where it stands. If the spans
evaluate from left to right, the template evaluates to its text with the spans replaced by what
their values show, and no slice of the text fails; and it evaluates only then. -/
theorem templates_keep_text {limit : Nat} {token : Token} {expr : Expr}
    (read : template (spanExpr limit) token = .ok expr) :
    ∃ head spans ranges, expr = .template head spans ∧
      ranges = spanRanges head.utf8ByteSize spans ∧
      Spanned token.lexeme spans ranges ∧
      List.Forall₂ (fun span range =>
        spanExpr limit (token.start + 1 + range.1 + 2) span.source.toList = .ok span.expr)
        spans ranges ∧
      ∀ (call : Call) (scope : FrameId) (machine after : Machine),
        (∀ values, Shows call scope machine spans values after →
          ∃ text, replaced token.lexeme 0 ranges (shownTexts values) = some text ∧
            evalExpr call scope expr machine = .ok (.string text) after) ∧
        ∀ value, evalExpr call scope expr machine = .ok value after →
          ∃ values, Shows call scope machine spans values after := by
  obtain ⟨head, spans, rfl, pieces⟩ := pieces_template read
  have spanned := pieces.spanned
  have text := pieces.ofList_eq
  have reads := pieces.reads (Nat.add_zero _).symm
  rw [String.ofList_toList] at spanned text
  rw [Nat.zero_add, Text.byteLength_eq] at reads
  refine ⟨String.ofList head, spans, _, rfl, rfl, spanned, reads,
    fun call scope machine after => ⟨fun values shows => ?_, fun value evaluates => ?_⟩⟩
  · refine ⟨String.ofList head ++ filled spans (shownTexts values), ?_, ?_⟩
    · simpa [text] using replaced_spans "" (String.ofList head) shows.length_eq
    · rw [evalExpr, bind_of_ok shows.evalSpans]
      rfl
  · rw [evalExpr] at evaluates
    obtain ⟨_, _, evaluates, last⟩ := bind_eq_ok evaluates
    cases last
    exact shows_of_evalSpans evaluates

/-- Two spans that touch each other, between a dollar sign and a brace that belong to none. -/
def touchingSpans : Token :=
  ⟨.template, "é$$\x7btrue\x7d$\x7b\"x\"\x7d$\x7d", 4, 24, false⟩

theorem template_touchingSpans :
    template (spanExpr 3) touchingSpans =
      .ok (.template "é$" [⟨"true", .boolean true, ""⟩, ⟨"\"x\"", .string "x", "$\x7d"⟩]) := by
  have first : spanExpr 3 10 "true".toList = .ok (.boolean true) := by
    have scanned : Scan.scanAll 10 "true".toList =
        [.ok ⟨.boolean, "true", 10, 14, false⟩, .ok (.endAt 14 false)] := by
      decide +kernel
    rw [spanExpr, State.ofText, scanned]
    rfl
  have second : spanExpr 3 17 "\"x\"".toList = .ok (.string "x") := by
    have scanned : Scan.scanAll 17 "\"x\"".toList =
        [.ok ⟨.string, "x", 17, 20, false⟩, .ok (.endAt 20 false)] := by
      decide +kernel
    rw [spanExpr, State.ofText, scanned]
    rfl
  have plain : readSpans (spanExpr 3) 15 21 "$\x7d".toList = .ok ("$\x7d".toList, []) := rfl
  have behind : readSpans (spanExpr 3) 16 15 "$\x7b\"x\"\x7d$\x7d".toList =
      .ok ([], [⟨"\"x\"", .string "x", "$\x7d"⟩]) :=
    readSpans_span (by decide +kernel) (by decide +kernel) second plain
  have spans : readSpans (spanExpr 3) 17 5 touchingSpans.lexeme.toList =
      .ok ("é$".toList, [⟨"true", .boolean true, ""⟩, ⟨"\"x\"", .string "x", "$\x7d"⟩]) :=
    readSpans_span (by decide +kernel) (by decide +kernel) first behind
  have length : touchingSpans.lexeme.toList.length = 17 := by decide +kernel
  rw [template, length, show touchingSpans.start + 1 = 5 from rfl, spans]
  rfl

/-- The ranges count the two bytes of the accent, and the values stand where the spans were. -/
theorem touchingSpans_kept :
    ∃ head spans, template (spanExpr 3) touchingSpans = .ok (.template head spans) ∧
      Spanned touchingSpans.lexeme spans [(3, 10), (10, 16)] ∧
      evalExpr (callFunction 4 2) Engine.global (.template head spans) idleMachine =
        .ok (.string "é$truex$\x7d") idleMachine := by
  obtain ⟨head, spans, ranges, same, found, spanned, -, evaluation⟩ :=
    templates_keep_text template_touchingSpans
  cases same
  have here : ranges = [(3, 10), (10, 16)] := by
    rw [found]
    decide +kernel
  subst here
  have shows : Shows (callFunction 4 2) Engine.global idleMachine
      [⟨"true", .boolean true, ""⟩, ⟨"\"x\"", .string "x", "$\x7d"⟩]
      [(.boolean true, idleMachine.store), (.string "x", idleMachine.store)] idleMachine :=
    .cons rfl (.cons rfl (.nil _))
  obtain ⟨text, kept, evaluates⟩ := (evaluation _ _ _ _).1 _ shows
  have whole : replaced touchingSpans.lexeme 0 [(3, 10), (10, 16)]
      (shownTexts [(.boolean true, idleMachine.store), (.string "x", idleMachine.store)]) =
      some "é$truex$\x7d" := by
    decide +kernel
  obtain rfl := Option.some.inj (kept.symm.trans whole)
  exact ⟨_, _, template_touchingSpans, spanned, evaluates⟩

end Scriptlet
