import Constituency.Text.Utf8
import Mathlib.Data.List.Forall2

/-!
# Writing lines and reading them

A text written line by line is cut into just these lines. What a line must not have for
this is a line feed, and a carriage return at its end, where it would be taken for a
part of the line end. The last line may be ended by a line feed or by the end of the
text; in the second case it must not be empty.

A text of which nothing is known consists of lines all the same, each with one of the two
endings; `Lined` says so without deciding whether a carriage return is a part of the line
or of its ending. Reading gives these lines, or leaves out one carriage return at the end.

Conversely a line that was cut from bytes has no line feed, however the bytes were
arranged: as a byte the line feed is none of the line's, and no other character of a
text that decodes has it among its bytes.

## Main results

* `textLines_intercalate`         — the lines written are the lines read.
* `Lined.forall₂_linesOf`         — the lines of any text are read up to a carriage return.
* `feed_not_mem_of_mem_byteLines` — a line that is read has no line feed.
-/

namespace Constituency.Text

variable {α : Type} [DecidableEq α] {feed ret : α}

-- ---------------------------------------------------------------------------
-- Lines that are written
-- ---------------------------------------------------------------------------

theorem linesOf_append_feed {line : List α} (hfeed : feed ∉ line)
    (hret : line.getLast? ≠ some ret) (rest : List α) :
    linesOf feed ret (line ++ feed :: rest) = line :: linesOf feed ret rest := by
  induction line with
  | nil => rw [List.nil_append, linesOf, if_pos rfl]
  | cons c line ih =>
    rw [List.mem_cons, not_or] at hfeed
    obtain ⟨hc, hfeed⟩ := hfeed
    cases line with
    | nil =>
      -- the last unit: it is kept, being no carriage return
      have hc' : c ≠ ret := fun heq => hret (congrArg some heq)
      rw [List.cons_append, linesOf, if_neg (Ne.symm hc), if_neg fun h => hc' h.1,
        List.nil_append, linesOf, if_pos rfl]
    | cons d line =>
      have hd : d ≠ feed := fun heq => hfeed (heq ▸ List.mem_cons_self)
      have hnext : ¬(c = ret ∧ (d :: line ++ feed :: rest).head? = some feed) :=
        fun h => hd (Option.some.inj h.2)
      rw [List.getLast?_cons_cons] at hret
      rw [List.cons_append, linesOf, if_neg (Ne.symm hc), if_neg hnext, ih hfeed hret]

theorem linesOf_of_not_mem {line : List α} (hne : line ≠ []) (hfeed : feed ∉ line) :
    linesOf feed ret line = [line] := by
  induction line with
  | nil => exact absurd rfl hne
  | cons c line ih =>
    rw [List.mem_cons, not_or] at hfeed
    obtain ⟨hc, hfeed⟩ := hfeed
    have hnext : ¬(c = ret ∧ line.head? = some feed) := fun h => hfeed (List.mem_of_head? h.2)
    rw [linesOf, if_neg (Ne.symm hc), if_neg hnext]
    cases line with
    | nil => rw [linesOf]
    | cons d line => rw [ih (List.cons_ne_nil d line) hfeed]

theorem linesOf_intercalate {lines : List (List α)}
    (h : ∀ line ∈ lines, line ≠ [] ∧ feed ∉ line ∧ line.getLast? ≠ some ret) (hne : lines ≠ [])
    {ending : List α} (hending : ending = [] ∨ ending = [feed]) :
    linesOf feed ret ([feed].intercalate lines ++ ending) = lines := by
  induction lines with
  | nil => exact absurd rfl hne
  | cons line lines ih =>
    obtain ⟨⟨hline, hfeed, hret⟩, hlines⟩ := List.forall_mem_cons.1 h
    cases lines with
    | nil =>
      rw [List.intercalate_singleton]
      rcases hending with rfl | rfl
      · rw [List.append_nil, linesOf_of_not_mem hline hfeed]
      · rw [linesOf_append_feed hfeed hret, linesOf]
    | cons line' lines =>
      rw [List.intercalate_cons_cons, List.append_assoc, List.append_assoc, List.singleton_append,
        linesOf_append_feed hfeed hret, ih hlines (List.cons_ne_nil line' lines)]

/-- A text that is written line by line has just these lines, with a line feed after
the last one and without. -/
theorem textLines_intercalate {lines : List String}
    (h : ∀ line ∈ lines, line ≠ "" ∧ '\n' ∉ line.toList ∧ line.toList.getLast? ≠ some '\r')
    (hne : lines ≠ []) {ending : String} (hending : ending = "" ∨ ending = "\n") :
    textLines ("\n".intercalate lines ++ ending) = lines := by
  have hlines : ∀ line ∈ lines.map String.toList,
      line ≠ [] ∧ '\n' ∉ line ∧ line.getLast? ≠ some '\r' := by
    refine List.forall_mem_map.2 fun line hline => ?_
    obtain ⟨hnonempty, hrest⟩ := h line hline
    exact ⟨fun hnil => hnonempty (String.toList_eq_nil_iff.1 hnil), hrest⟩
  have hne' : lines.map String.toList ≠ [] := fun hnil => hne (List.map_eq_nil_iff.1 hnil)
  have hending' : ending.toList = [] ∨ ending.toList = ['\n'] := by
    rcases hending with rfl | rfl
    · exact Or.inl rfl
    · exact Or.inr rfl
  have hseparator : "\n".toList = ['\n'] := rfl
  rw [textLines, String.toList_append, String.toList_intercalate, hseparator,
    linesOf_intercalate hlines hne' hending', List.map_map]
  exact (List.map_congr_left fun line _ => String.ofList_toList).trans (List.map_id lines)

-- ---------------------------------------------------------------------------
-- Lines with either ending
-- ---------------------------------------------------------------------------

/-- The text is these lines, each with an ending, which is a line feed or a carriage return
and a line feed. The last line may go without one, unless it is empty. -/
inductive Lined : List Char → List (List Char) → Prop
  | nil : Lined [] []
  | last {line : List Char} (hne : line ≠ []) (hfeed : '\n' ∉ line) : Lined line [line]
  | feed {line text : List Char} {lines : List (List Char)} (hfeed : '\n' ∉ line)
      (h : Lined text lines) : Lined (line ++ '\n' :: text) (line :: lines)
  | returnFeed {line text : List Char} {lines : List (List Char)} (hfeed : '\n' ∉ line)
      (h : Lined text lines) : Lined (line ++ '\r' :: '\n' :: text) (line :: lines)

/-- Every text consists of lines. -/
theorem exists_lined (text : List Char) : ∃ lines, Lined text lines := by
  induction text with
  | nil => exact ⟨[], .nil⟩
  | cons c text ih =>
    obtain ⟨lines, h⟩ := ih
    by_cases hc : c = '\n'
    · subst hc
      exact ⟨[] :: lines, .feed List.not_mem_nil h⟩
    · have hcons {line : List Char} (hfeed : '\n' ∉ line) : '\n' ∉ c :: line := by
        rw [List.mem_cons, not_or]
        exact ⟨Ne.symm hc, hfeed⟩
      cases h with
      | nil => exact ⟨[[c]], .last (List.cons_ne_nil _ _) (hcons List.not_mem_nil)⟩
      | last _ hfeed => exact ⟨_, .last (List.cons_ne_nil _ _) (hcons hfeed)⟩
      | feed hfeed h => exact ⟨_, .feed (hcons hfeed) h⟩
      | returnFeed hfeed h => exact ⟨_, .returnFeed (hcons hfeed) h⟩

theorem linesOf_append_return_feed (hne : ret ≠ feed) {line : List α} (hfeed : feed ∉ line)
    (rest : List α) : linesOf feed ret (line ++ ret :: feed :: rest) = line :: linesOf feed ret rest := by
  induction line with
  | nil => rw [List.nil_append, linesOf, if_neg hne, if_pos ⟨rfl, rfl⟩, linesOf, if_pos rfl]
  | cons c line ih =>
    rw [List.mem_cons, not_or] at hfeed
    obtain ⟨hc, hfeed⟩ := hfeed
    have hnext : ¬(c = ret ∧ (line ++ ret :: feed :: rest).head? = some feed) := by
      rintro ⟨-, hhead⟩
      cases line with
      | nil => exact hne (Option.some.inj hhead)
      | cons d line => exact hfeed (Option.some.inj hhead ▸ List.mem_cons_self)
    rw [List.cons_append, linesOf, if_neg (Ne.symm hc), if_neg hnext, ih hfeed]

/-- The lines of a text are read as they are, but for a carriage return at the end of one
that a line feed follows. -/
theorem Lined.forall₂_linesOf {text : List Char} {lines : List (List Char)} (h : Lined text lines) :
    List.Forall₂ (fun line read => line = read ∨ line = read ++ ['\r']) lines
      (linesOf '\n' '\r' text) := by
  induction h with
  | nil => exact .nil
  | last hne hfeed =>
    rw [linesOf_of_not_mem hne hfeed]
    exact .cons (Or.inl rfl) .nil
  | @feed line text lines hfeed _ ih =>
    by_cases hret : line.getLast? = some '\r'
    · obtain ⟨front, rfl⟩ := List.getLast?_eq_some_iff.1 hret
      have hfront : '\n' ∉ front := fun hmem => hfeed (List.mem_append_left _ hmem)
      rw [List.append_assoc, List.singleton_append, linesOf_append_return_feed (by decide) hfront]
      exact .cons (Or.inr rfl) ih
    · rw [linesOf_append_feed hfeed hret]
      exact .cons (Or.inl rfl) ih
  | returnFeed hfeed _ ih =>
    rw [linesOf_append_return_feed (by decide) hfeed]
    exact .cons (Or.inl rfl) ih
-- ---------------------------------------------------------------------------
-- Lines that are read
-- ---------------------------------------------------------------------------

theorem feed_not_mem_of_mem_linesOf {units line : List α} (h : line ∈ linesOf feed ret units) :
    feed ∉ line := by
  induction units generalizing line with
  | nil => exact absurd h List.not_mem_nil
  | cons c cs ih =>
    rw [linesOf] at h
    split at h
    · rcases List.mem_cons.1 h with rfl | h
      · exact List.not_mem_nil
      · exact ih h
    · next hc =>
      split at h
      · exact ih h
      · have hkeep : ∀ rest : List α, feed ∉ rest → feed ∉ c :: rest := by
          intro rest hrest hmem
          rcases List.mem_cons.1 hmem with heq | hmem
          · exact hc heq.symm
          · exact hrest hmem
        split at h
        · rw [List.mem_singleton.1 h]
          exact hkeep [] List.not_mem_nil
        · next first others hlines =>
          rcases List.mem_cons.1 h with rfl | h
          · exact hkeep first (ih (hlines ▸ List.mem_cons_self))
          · exact ih (hlines ▸ List.mem_cons_of_mem _ h)

/-- What bytes decode to encodes to these bytes. -/
theorem encode_of_decode_eq_some {bytes : List UInt8} {text : String}
    (h : decode bytes = some text) : encode text.toList = bytes := by
  unfold decode String.fromUTF8? at h
  split at h
  · have hbytes : text.toByteArray = bytes.toByteArray := by
      rw [← Option.some.inj h]
      rfl
    rw [← String.ofList_toList (s := text), String.toByteArray_ofList] at hbytes
    exact List.toByteArray_inj.1 hbytes
  · cases h

/-- A line that is read from bytes has no line feed. -/
theorem feed_not_mem_of_mem_byteLines {bytes : List UInt8} {line : String}
    (h : some line ∈ byteLines bytes) : '\n' ∉ line.toList := by
  obtain ⟨units, hunits, hdecode⟩ := List.mem_map.1 h
  intro hmem
  have hfeed : (10 : UInt8) ∈ String.utf8EncodeChar '\n' := by
    rw [utf8EncodeChar_feed]
    exact List.mem_cons_self
  refine feed_not_mem_of_mem_linesOf hunits ?_
  rw [← encode_of_decode_eq_some hdecode]
  exact List.mem_flatMap.2 ⟨'\n', hmem, hfeed⟩

end Constituency.Text
