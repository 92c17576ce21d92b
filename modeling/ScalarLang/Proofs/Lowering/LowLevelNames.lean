import ScalarLang.Proofs.Lexing.Rules
import ScalarLang.Proofs.Lowering.Names

/-!
# Which low-level names are equal

Words hold no hyphen, so the hyphens of a low-level name separate its labels, and it can be
cut into the label that each hyphen opens and a first piece.  The first piece joins the name
and the first label by an underscore, which words may hold, and this is the only way in which
two low-level names are equal.
-/

set_option autoImplicit false

namespace ScalarLang

/-! ## Words -/

structure IsWord (word : String) : Prop where
  notEmpty : word ≠ ""
  areParts : ∀ character ∈ word.toList, TokenRule.WordPart character

theorem isWord_iff {word : String} : IsWord word ↔ word ≠ "" ∧
    word.toList.all (fun character => decide (TokenRule.WordPart character)) = true := by
  rw [List.all_eq_true]
  constructor
  · rintro ⟨notEmpty, areParts⟩
    exact ⟨notEmpty, fun character member => decide_eq_true (areParts character member)⟩
  · rintro ⟨notEmpty, areParts⟩
    exact ⟨notEmpty, fun character member => of_decide_eq_true (areParts character member)⟩

instance (word : String) : Decidable (IsWord word) := decidable_of_iff _ isWord_iff.symm

theorem IsWord.noHyphen {word : String} (isWord : IsWord word) : '-' ∉ word.toList :=
  fun member => absurd (isWord.areParts _ member) (by decide)

/-! ## Pieces between hyphens -/

/-- The pieces of a low-level name: the name with the first label, and the other labels. -/
def mangledPieces (name : String) (labels : List String) : List String :=
  (name ++ "_" ++ labels.headD "") :: labels.tail

theorem mangle_eq_intercalate (name : String) (labels : List String) :
    mangle name labels = "-".intercalate (mangledPieces name labels) := by
  cases labels with
  | nil => simp [mangle, mangledPieces]
  | cons first others =>
      rw [mangledPieces, String.intercalate_cons_append]
      rfl

section

variable {name other : String} {labels others : List String}

theorem mangledPieces_noHyphen (isName : IsWord name) (areLabels : ∀ label ∈ labels, IsWord label) :
    ∀ piece ∈ (mangledPieces name labels).map String.toList, '-' ∉ piece := by
  have ofLabel : '-' ∉ (labels.headD "").toList := by
    cases labels with
    | nil => decide
    | cons first rest => exact (areLabels first List.mem_cons_self).noHyphen
  rw [List.forall_mem_map, mangledPieces, List.forall_mem_cons]
  constructor
  · rw [String.toList_append, String.toList_append, List.mem_append, List.mem_append]
    rintro ((inName | inUnderscore) | inLabel)
    · exact isName.noHyphen inName
    · exact absurd inUnderscore (by decide)
    · exact ofLabel inLabel
  · exact fun label inTail => (areLabels label (List.mem_of_mem_tail inTail)).noHyphen

/-- The hyphens of a low-level name cut it into its pieces. -/
theorem splitOn_mangle (isName : IsWord name) (areLabels : ∀ label ∈ labels, IsWord label) :
    (mangle name labels).toList.splitOn '-' = (mangledPieces name labels).map String.toList := by
  rw [mangle_eq_intercalate, String.toList_intercalate]
  exact List.splitOn_intercalate '-' (mangledPieces_noHyphen isName areLabels)
    (List.cons_ne_nil _ _)

/-- Low-level names are equal exactly if they have the same pieces. -/
theorem mangle_eq_mangle_iff (isName : IsWord name) (isOther : IsWord other)
    (areLabels : ∀ label ∈ labels, IsWord label) (areOthers : ∀ label ∈ others, IsWord label) :
    mangle name labels = mangle other others ↔ labels.tail = others.tail ∧
      name ++ "_" ++ labels.headD "" = other ++ "_" ++ others.headD "" := by
  have samePieces : mangle name labels = mangle other others ↔
      mangledPieces name labels = mangledPieces other others := by
    constructor
    · intro same
      have sameCut := splitOn_mangle isName areLabels
      rw [same, splitOn_mangle isOther areOthers] at sameCut
      exact (List.map_injective_iff.mpr fun _ _ => String.toList_inj.mp) sameCut.symm
    · intro same
      rw [mangle_eq_intercalate, same, ← mangle_eq_intercalate]
  rw [samePieces, mangledPieces, mangledPieces, List.cons_eq_cons, and_comm]

/-- Labels are words, so an empty list of labels leaves a piece that no label leaves. -/
theorem labels_eq_of_pieces (areLabels : ∀ label ∈ labels, IsWord label)
    (areOthers : ∀ label ∈ others, IsWord label) (sameTail : labels.tail = others.tail)
    (sameFirst : labels.headD "" = others.headD "") : labels = others := by
  cases labels with
  | nil =>
      cases others with
      | nil => rfl
      | cons first rest => exact absurd sameFirst.symm (areOthers first List.mem_cons_self).notEmpty
  | cons first rest =>
      cases others with
      | nil => exact absurd sameFirst (areLabels first List.mem_cons_self).notEmpty
      | cons second more => exact List.cons_eq_cons.mpr ⟨sameFirst, sameTail⟩

theorem mangle_left_inj : mangle name labels = mangle other labels ↔ name = other := by
  rw [mangle, mangle, String.append_left_inj, String.append_left_inj]

end

/-- Low-level names of words collide only where an underscore can belong to the name or to the
first label.  So the labels of a name and the name of some labels can be read off, and a call
that finds a function under its low-level name and has the function's labels has its name. -/
theorem low_level_names_collide_at_underscores (name other : String) (labels others : List String)
    (isName : IsWord name) (isOther : IsWord other) (areLabels : ∀ label ∈ labels, IsWord label)
    (areOthers : ∀ label ∈ others, IsWord label) :
    (mangle name labels = mangle other others ↔ labels.tail = others.tail ∧
      name ++ "_" ++ labels.headD "" = other ++ "_" ++ others.headD "") ∧
    (mangle name labels = mangle name others ↔ labels = others) ∧
    (mangle name labels = mangle other labels ↔ name = other) ∧
    ∀ (function : FunctionDecl) (callee : Ident) (arguments : List CallArgument),
      function.lowLevelName = CallArgument.lowLevelName callee arguments ∧
          checkLabels function callee arguments = .ok () ↔
        function.name.name = callee.name ∧ function.labels = CallArgument.labels arguments := by
  refine ⟨mangle_eq_mangle_iff isName isOther areLabels areOthers, ?_, mangle_left_inj, ?_⟩
  · constructor
    · intro same
      obtain ⟨sameTail, sameFirst⟩ :=
        (mangle_eq_mangle_iff isName isName areLabels areOthers).mp same
      exact labels_eq_of_pieces areLabels areOthers sameTail
        ((String.append_right_inj _).mp sameFirst)
    · exact congrArg _
  · intro function callee arguments
    rw [checkLabels_eq_ok_iff]
    exact and_congr_left lowLevelName_eq_of_labels

/-- A function without parameters and a call with one argument have one low-level name. -/
theorem low_level_names_collide_without_labels :
    (IsWord "f_x" ∧ IsWord "f" ∧ IsWord "x_") ∧ mangle "f_x" [] = mangle "f" ["x_"] := by
  have areWords : IsWord "f_x" ∧ IsWord "f" ∧ IsWord "x_" := by decide
  refine ⟨areWords, ?_⟩
  obtain ⟨isName, isOther, isLabel⟩ := areWords
  have collide := (low_level_names_collide_at_underscores "f_x" "f" [] ["x_"] isName isOther
    (List.forall_mem_nil _) (List.forall_mem_singleton.mpr isLabel)).1
  exact collide.mpr ⟨rfl, by decide⟩

end ScalarLang
