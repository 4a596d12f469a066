import Fixtures.Proofs.Path

/-!
# What a normal form keeps

The normal form of a text is described here by the pieces of the text. Only empty pieces, dots and
slashes that are not needed are dropped; all other pieces are kept as they are and in their order.
This is the text of the path that the text is read as.
-/

namespace Fixtures.Path

/-- How many slashes are kept of those that a text begins with: more than two count as one. -/
def keptSlashes (count : Nat) : Nat :=
  if 2 < count then 1 else count

/-- Characters, or a dot where there are none. -/
def orDot (cs : List Char) : List Char :=
  if cs = [] then ['.'] else cs

/-- A text is the normal form of another one: its pieces between slashes without those that are
empty or a dot, with a slash between them, behind the slashes that are kept at the front. -/
def IsNormalForm (text normal : String) : Prop :=
  ∃ pieces : List (List Char), ['/'].intercalate pieces = text.toList ∧
    (∀ piece ∈ pieces, '/' ∉ piece) ∧
    normal.toList = orDot (List.replicate
        (keptSlashes (text.toList.takeWhile (· = '/')).length) '/' ++
      ['/'].intercalate (pieces.filter fun piece => piece ≠ [] ∧ piece ≠ ['.']))

/-- The slashes of an anchor are those that are kept. -/
theorem Anchor.chars_ofChars (cs : List Char) :
    (Anchor.ofChars cs).chars =
      List.replicate (keptSlashes (cs.takeWhile (· = '/')).length) '/' := by
  unfold Anchor.ofChars
  split
  · simp [keptSlashes, Anchor.chars]
  · rename_i rest hmore
    cases rest with
    | nil => rfl
    | cons c rest =>
      have hc : c ≠ '/' := fun heq => hmore rest (by rw [heq])
      simp [keptSlashes, Anchor.chars, hc, List.replicate]
  · rename_i rest _ hmore
    cases rest with
    | nil => rfl
    | cons c rest =>
      have hc : c ≠ '/' := fun heq => hmore rest (by rw [heq])
      simp [keptSlashes, Anchor.chars, hc]
  · rename_i hnone
    cases cs with
    | nil => rfl
    | cons c rest =>
      have hc : c ≠ '/' := fun heq => hnone rest (by rw [heq])
      simp [keptSlashes, Anchor.chars, hc]

/-- The text of parts has a slash between each two of them. -/
theorem joinParts_eq_intercalate (parts : List String) :
    joinParts parts = ['/'].intercalate (parts.map String.toList) := by
  induction parts with
  | nil => rfl
  | cons part rest ih =>
    cases rest with
    | nil => simp [joinParts]
    | cons second rest =>
      rw [joinParts_cons (by simp), ih]
      simp [List.intercalate_cons_cons]

/-- The parts of a text are its pieces without those that are empty or a dot. -/
theorem map_toList_partsOfChars (cs : List Char) :
    (partsOfChars cs).map String.toList =
      (splitSlashes cs).filter fun piece => piece ≠ [] ∧ piece ≠ ['.'] := by
  have hkept (piece : List Char) : (String.ofList piece != "" && String.ofList piece != ".") =
      decide (piece ≠ [] ∧ piece ≠ ['.']) := by
    have hdot : (String.ofList piece = ".") ↔ piece = ['.'] := by
      rw [← String.toList_inj, String.toList_ofList]
      rfl
    rw [Bool.eq_iff_iff]
    simp [hdot]
  unfold partsOfChars
  rw [List.filter_map, List.map_map]
  simp only [Function.comp_def, hkept, String.toList_ofList, List.map_id']

/-- **What a normal form keeps.** The text of the path that a text is read as is the normal form of
the text. -/
theorem isNormalForm_toText_ofText (text : String) : IsNormalForm text (ofText text).toText := by
  refine ⟨splitSlashes text.toList, intercalate_splitSlashes text.toList,
    fun piece => slash_not_mem_of_mem_splitSlashes, ?_⟩
  rw [← map_toList_partsOfChars, ← joinParts_eq_intercalate, ← Anchor.chars_ofChars]
  unfold toText ofText orDot
  by_cases hnil : (Anchor.ofChars text.toList).chars ++ joinParts (partsOfChars text.toList) = []
  · simp [hnil]
  · simp [hnil, -List.append_eq_nil_iff]

end Fixtures.Path
