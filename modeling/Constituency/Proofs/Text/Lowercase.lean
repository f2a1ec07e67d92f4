import Constituency.Text.Words

/-!
# White space and lower case

The lower case of a capital sigma depends on the characters around it: it looks back and
forth, past characters that casing looks past, for one that has a case. White space has no
case and casing does not look past it. A look ends there, so what stands beyond white space
has no influence, and the lower case of a text that is cut at white space is put together
from the lower cases of its parts.

That white space is of this kind is a fact about the tables of characters. There are few
white space characters, and each of them is looked up.

## Main declarations

* `kindOf_of_isWhiteSpace`  — white space is neither a word character nor punctuation.
* `lowerAfter_append_cons`  — the lower case on both sides of white space.
* `lowercase_append_space`  — the same for texts.
-/

namespace Constituency.Text

open Unicode

/-- What holds of each character in the table of white space holds of all white space. -/
theorem forall_of_isWhiteSpace {P : Char → Prop}
    (h : ∀ r ∈ whiteSpaceRanges, ∀ n ∈ List.range' r.first (r.last + 1 - r.first), P (Char.ofNat n))
    {c : Char} (hc : isWhiteSpace c = true) : P c := by
  obtain ⟨r, hr, hfirst, hlast⟩ := exists_mem_of_covers hc
  rw [← Char.ofNat_toNat c]
  exact h r hr _ (List.mem_range'_1.2 ⟨hfirst, by omega⟩)

theorem toList_append_singleton_append (a b : String) (w : Char) :
    (a ++ String.singleton w ++ b).toList = a.toList ++ w :: b.toList := by
  rw [String.toList_append, String.toList_append, String.toList_singleton, List.append_assoc]
  rfl

section

variable {w : Char} (hw : isWhiteSpace w = true)

include hw

theorem kindOf_of_isWhiteSpace : kindOf w = .space :=
  forall_of_isWhiteSpace (P := fun c => kindOf c = .space) (by decide +kernel) hw

theorem isCaseIgnorable_of_isWhiteSpace : isCaseIgnorable w = false :=
  forall_of_isWhiteSpace (P := fun c => isCaseIgnorable c = false) (by decide +kernel) hw

theorem isCased_of_isWhiteSpace : isCased w = false :=
  forall_of_isWhiteSpace (P := fun c => isCased c = false) (by decide +kernel) hw

theorem lowerChar_of_isWhiteSpace : lowerChar w = [w] :=
  forall_of_isWhiteSpace (P := fun c => lowerChar c = [c]) (by decide +kernel) hw

/-- White space ends a look for a character that has a case. -/
theorem meetsCased_append_cons (cs rest : List Char) :
    meetsCased (cs ++ w :: rest) = meetsCased cs := by
  induction cs with
  | nil =>
    have hstop := isCaseIgnorable_of_isWhiteSpace hw
    rw [List.nil_append, meetsCased, List.dropWhile_cons_of_neg (by simp [hstop])]
    exact isCased_of_isWhiteSpace hw
  | cons c cs ih =>
    by_cases hc : isCaseIgnorable c = true
    · unfold meetsCased at ih ⊢
      rwa [List.cons_append, List.dropWhile_cons_of_pos hc, List.dropWhile_cons_of_pos hc]
    · unfold meetsCased
      rw [List.cons_append, List.dropWhile_cons_of_neg hc, List.dropWhile_cons_of_neg hc]

/-- What stands in front of white space has no influence behind it. -/
theorem lowerAfter_of_space_before (front before cs : List Char) :
    lowerAfter (front ++ w :: before) cs = lowerAfter front cs := by
  induction cs generalizing front with
  | nil => rfl
  | cons c cs ih =>
    have hgoes := ih (c :: front)
    rw [List.cons_append] at hgoes
    rw [lowerAfter, lowerAfter, hgoes, smallSigma, smallSigma, meetsCased_append_cons hw]

/-- The lower case on both sides of white space. -/
theorem lowerAfter_append_cons (before a b : List Char) :
    lowerAfter before (a ++ w :: b) = lowerAfter before a ++ w :: lowerAfter [] b := by
  induction a generalizing before with
  | nil =>
    have hsigma : w ≠ 'Σ' := by
      rintro rfl
      exact absurd (isCased_of_isWhiteSpace hw) (by decide)
    have hbehind := lowerAfter_of_space_before hw [] before b
    rw [List.nil_append] at hbehind
    rw [List.nil_append, lowerAfter, lowerAfter, if_neg hsigma, lowerChar_of_isWhiteSpace hw, hbehind]
    rfl
  | cons c a ih =>
    rw [List.cons_append, lowerAfter, lowerAfter, ih, smallSigma, smallSigma,
      meetsCased_append_cons hw, List.append_assoc]

theorem lowercase_append_space (a b : String) :
    lowercase (a ++ String.singleton w ++ b) =
      lowercase a ++ String.singleton w ++ lowercase b := by
  rw [← String.toList_inj, toList_append_singleton_append, lowercase, lowercase, lowercase,
    String.toList_ofList, String.toList_ofList, String.toList_ofList,
    toList_append_singleton_append, lowerAfter_append_cons hw]

end

end Constituency.Text
