import NeuVector.Controller.AdmissionRules
import NeuVector.Library.LastWins
import NeuVector.Library.SetOperators
import NeuVector.Library.Table

/-!
# Operators on sets in admission criteria

The operators on sets are implemented for sets, for maps of properties with
one or with several values, and for images.  This module states what they
mean, and for which criteria each implementation means it: maps keep only the
last value that is listed for a key, and the criterion on images takes
`containsOtherThan` to ask whether some listed value does not match.
-/

namespace NeuVector.Controller

open Share Library SetOp List

def criteriaOpOf : SetOp → CriteriaOp
  | .containsAll => .containsAll
  | .containsAny => .containsAny
  | .notContainsAny => .notContainsAny
  | .containsOtherThan => .containsOtherThan

def propsOf (propMap : GoMap String (List String)) : List (String × String) :=
  propMap.entries.flatMap fun prop => prop.2.map fun value => (prop.1, value)

variable (env : AdmEnv)

/-- A value of a criterion matches a text; an empty one matches any. -/
def valueMatches (value text : String) : Bool := value = "" || equalMatch env.toRegexEnv value text

def matchesProp (item prop : String × String) : Bool :=
  item.1 = prop.1 && valueMatches env item.2 prop.2

def HasValues (propMap : GoMap String (List String)) : Prop :=
  ∀ key values, propMap.lookup key = some values → values ≠ []

variable (crt : AdmCriterion)

/-- The items that are left when a later value of a key replaces an earlier
one. -/
def keptItems : List (String × String) := (kvMapOf crt).entries.map fun entry => (entry.1, entry.2)

/-- The last value of a key matches the texts that a listed one matches. -/
def LastIsWider : Prop :=
  ∀ item ∈ crt.valueSlice.map keyValue, ∀ last, (kvMapOf crt).lookup item.1 = some last →
      ∀ text, valueMatches env item.2 text = true → valueMatches env last text = true

/-- The last value of a key matches only texts that each listed one does, or
a key has a last value that matches no text. -/
def LastIsNarrower : Prop :=
  (∃ key last, (kvMapOf crt).lookup key = some last ∧ ∀ text, valueMatches env last text = false) ∨
  ∀ item ∈ crt.valueSlice.map keyValue, ∀ last, (kvMapOf crt).lookup item.1 = some last →
      ∀ text, valueMatches env last text = true → valueMatches env item.2 text = true

/-- The last value listed for a key stands for all of them. -/
def LastDecides : SetOp → Prop
  | .containsAll => LastIsNarrower env crt
  | _ => LastIsWider env crt

def SameImages : Prop :=
  ∀ c, ∀ first ∈ crt.valueSlice, ∀ second ∈ crt.valueSlice,
    matchImageValue env crt.op first c = true → matchImageValue env crt.op second c = true

section Sets

variable {env : AdmEnv} {crt : AdmCriterion} {op : SetOp}

theorem isSetCriterionMet_means (isOp : crt.op = criteriaOpOf op)
    (listed : crt.valueSlice ≠ []) (valueSet : List String) :
    (isSetCriterionMet env crt valueSet).1 = true ↔
      op.Means (equalMatch env.toRegexEnv) crt.valueSlice valueSet := by
  unfold isSetCriterionMet
  cases op with
  | containsAll =>
    rw [isOp, criteriaOpOf]
    obtain ⟨first, member⟩ := exists_mem_of_ne_nil _ listed
    simp only [Bool.and_eq_true, Bool.not_eq_true', isEmpty_eq_false_iff,
      all_eq_true, any_eq_true, SetOp.Means, SetOp.Present]
    constructor
    · exact fun both => both.2
    · intro all
      refine ⟨?_, all⟩
      obtain ⟨value, known, _⟩ := all first member
      exact ne_nil_of_mem known
  | containsAny =>
    rw [isOp, criteriaOpOf]
    simp only [any_eq_true, SetOp.Means, SetOp.Present]
  | notContainsAny =>
    rw [isOp, criteriaOpOf]
    simp [SetOp.Means, SetOp.Present]
  | containsOtherThan =>
    rw [isOp, criteriaOpOf]
    simp [SetOp.Means]

/-- The criterion on images means what it says except for values that match
different images. -/
theorem isImageCriterionMet_means_iff (isOp : crt.op = criteriaOpOf op)
    (listed : crt.valueSlice ≠ []) :
    (∀ c, (isImageCriterionMet env crt c).1 = true ↔
      op.Means (matchImageValue env crt.op) crt.valueSlice [c]) ↔
      (op = .containsOtherThan → SameImages env crt) := by
  by_cases isOther : op = .containsOtherThan
  · subst isOther
    have met : ∀ c, (isImageCriterionMet env crt c).1 = true ↔ ∃ value ∈ crt.valueSlice,
          matchImageValue env crt.op value c = false := by
      intro c
      unfold isImageCriterionMet
      rw [isOp, criteriaOpOf]
      simp
    have meaning : ∀ c, SetOp.Means (matchImageValue env crt.op)
        crt.valueSlice [c] .containsOtherThan ↔
        ∀ value ∈ crt.valueSlice,
          matchImageValue env crt.op value c = false := by
      intro c
      simp [SetOp.Means]
    constructor
    · intro agrees _ c first firstIn second secondIn matched
      cases result : matchImageValue env crt.op second c with
      | true => rfl
      | false =>
        have all := (meaning c).mp ((agrees c).mp ((met c).mpr ⟨second, secondIn, result⟩))
        rw [all first firstIn] at matched
        cases matched
    · intro same c
      rw [met, meaning]
      constructor
      · rintro ⟨value, member, unmatched⟩ other otherIn
        cases result : matchImageValue env crt.op other c with
        | false => rfl
        | true =>
          rw [same rfl c other otherIn value member result] at unmatched
          cases unmatched
      · intro none
        obtain ⟨first, member⟩ := exists_mem_of_ne_nil _ listed
        exact ⟨first, member, none first member⟩
  · constructor
    · exact fun _ other => absurd other isOther
    · intro _ c
      unfold isImageCriterionMet
      rw [isOp]
      cases op with
      | containsOtherThan => exact absurd rfl isOther
      | _ => simp [SetOp.Means, SetOp.Present, criteriaOpOf]

end Sets

variable (propMap : GoMap String String) (prop : String × String)

section Maps

variable {env : AdmEnv} {crt : AdmCriterion} {op : SetOp}

theorem kvMapOf_lookup (key : String) :
    (kvMapOf crt).lookup key = (LastWins.last (fun text => (keyValue text).1) crt.valueSlice
      key).map fun text => (keyValue text).2 :=
  (LastWins.lookup_foldl_insert _ ∅).trans Option.or_none

theorem kvMapOf_listed {key value : String} (found : (kvMapOf crt).lookup key = some value) :
    (key, value) ∈ crt.valueSlice.map keyValue := by
  rw [kvMapOf_lookup] at found
  obtain ⟨text, last, rfl⟩ := Option.map_eq_some_iff.mp found
  obtain ⟨member, rfl⟩ := LastWins.last_mem last
  exact mem_map_of_mem member

theorem kvMapOf_each {item : String × String} (listed : item ∈ crt.valueSlice.map keyValue) :
    ∃ last, (kvMapOf crt).lookup item.1 = some last := by
  obtain ⟨text, member, rfl⟩ := mem_map.mp listed
  obtain ⟨last, found⟩ := LastWins.last_isSome (fun text => (keyValue text).1) member
  exact ⟨_, by rw [kvMapOf_lookup, found]; rfl⟩

theorem mem_keptItems {item : String × String} :
    item ∈ keptItems crt ↔ (kvMapOf crt).lookup item.1 = some item.2 :=
  Table.mem_pairs

theorem keptItems_subset : keptItems crt ⊆ crt.valueSlice.map keyValue := by
  intro item member
  exact kvMapOf_listed (mem_keptItems.mp member)

theorem mem_propsOf {propMap : GoMap String (List String)} {prop : String × String} :
    prop ∈ propsOf propMap ↔ ∃ values, propMap.lookup prop.1 = some values ∧ prop.2 ∈ values := by
  unfold propsOf
  rw [mem_flatMap]
  constructor
  · rintro ⟨entry, member, inValues⟩
    obtain ⟨value, known, rfl⟩ := mem_map.mp inValues
    exact ⟨entry.2, AList.mem_lookup_iff.mpr member, known⟩
  · rintro ⟨values, found, known⟩
    exact ⟨⟨prop.1, values⟩, AList.mem_lookup_iff.mp found, mem_map.mpr ⟨prop.2, known, rfl⟩⟩

theorem doesComplexMapContain_iff {propMap : GoMap String (List String)}
    (hasValues : HasValues propMap) (item : String × String) :
    doesComplexMapContain env item.1 item.2 propMap = true ↔
      SetOp.Present (matchesProp env) (propsOf propMap) item := by
  unfold doesComplexMapContain SetOp.Present matchesProp
  constructor
  · intro contains
    split at contains
    · cases contains
    next values found =>
      rcases Bool.or_eq_true_iff.mp contains with empty | isMatched
      · obtain ⟨value, known⟩ := exists_mem_of_ne_nil _ (hasValues item.1 values found)
        refine ⟨(item.1, value), mem_propsOf.mpr ⟨values, found, known⟩, ?_⟩
        simp [valueMatches, of_decide_eq_true empty]
      · obtain ⟨value, known, equal⟩ := any_eq_true.mp isMatched
        refine ⟨(item.1, value), mem_propsOf.mpr ⟨values, found, known⟩, ?_⟩
        simp [valueMatches, equal]
  · rintro ⟨prop, member, isMatched⟩
    obtain ⟨values, found, known⟩ := mem_propsOf.mp member
    obtain ⟨sameKey, value⟩ := Bool.and_eq_true_iff.mp isMatched
    rw [of_decide_eq_true sameKey, found]
    rcases Bool.or_eq_true_iff.mp value with empty | equal
    · exact Bool.or_eq_true_iff.mpr (Or.inl empty)
    · exact Bool.or_eq_true_iff.mpr (Or.inr (any_eq_true.mpr ⟨prop.2, known, equal⟩))

theorem doesPropMatchCrt_iff :
    doesPropMatchCrt env prop.1 prop.2 (kvMapOf crt) = true ↔
      ∃ item ∈ keptItems crt, matchesProp env item prop = true := by
  unfold doesPropMatchCrt matchesProp
  constructor
  · intro isMatched
    split at isMatched
    · cases isMatched
    next value found =>
      refine ⟨(prop.1, value), mem_keptItems.mpr found, ?_⟩
      simpa [valueMatches] using isMatched
  · rintro ⟨item, member, isMatched⟩
    have found := mem_keptItems.mp member
    obtain ⟨sameKey, value⟩ := Bool.and_eq_true_iff.mp isMatched
    rw [← of_decide_eq_true sameKey, found]
    exact value

theorem isComplexMapCriterionMet_kept (isOp : crt.op = criteriaOpOf op)
    (listed : crt.valueSlice ≠ []) {propMap : GoMap String (List String)}
    (hasValues : HasValues propMap) :
    (isComplexMapCriterionMet env crt propMap).1 = true ↔
      op.Means (matchesProp env) (keptItems crt) (propsOf propMap) := by
  have contains := fun entry : Sigma fun _ : String => String =>
    @doesComplexMapContain_iff env propMap hasValues (entry.1, entry.2)
  have items : ∀ holds : String × String → Prop, (∀ item ∈ keptItems crt, holds item) ↔
        ∀ entry ∈ (kvMapOf crt).entries, holds (entry.1, entry.2) := by
    intro holds
    exact forall_mem_map
  have some : ∀ holds : String × String → Prop, (∃ item ∈ keptItems crt, holds item) ↔
        ∃ entry ∈ (kvMapOf crt).entries, holds (entry.1, entry.2) := by
    intro holds
    simp [keptItems]
  unfold isComplexMapCriterionMet
  split
  next empty =>
    have noProps : propsOf propMap = [] := by
      unfold propsOf
      rw [isEmpty_iff.mp empty]
      rfl
    obtain ⟨value, member⟩ := exists_mem_of_ne_nil _ listed
    obtain ⟨last, found⟩ := kvMapOf_each (mem_map_of_mem member)
    have kept : ((keyValue value).1, last) ∈ keptItems crt := mem_keptItems.mpr found
    rw [noProps, isOp]
    cases op with
    | containsAll =>
      constructor
      · intro no
        cases no
      · intro all
        obtain ⟨prop, none, _⟩ := all _ kept
        cases none
    | containsAny | notContainsAny => simp [criteriaOpOf, SetOp.Means, SetOp.Present]
    | containsOtherThan => simp [criteriaOpOf, SetOp.Means]
  · rw [isOp]
    cases op with
    | containsAll => simp only [criteriaOpOf, SetOp.Means, items, all_eq_true, contains]
    | containsAny => simp only [criteriaOpOf, SetOp.Means, some, any_eq_true, contains]
    | notContainsAny =>
      simp only [criteriaOpOf, SetOp.Means, items, Bool.not_eq_true', any_eq_false, contains]
    | containsOtherThan =>
      have unmatched : ∀ prop : String × String,
          doesPropMatchCrt env prop.1 prop.2 (kvMapOf crt) = false ↔
            ∀ item ∈ keptItems crt, matchesProp env item prop = false := by
        intro prop
        rw [← Bool.not_eq_true, doesPropMatchCrt_iff]
        simp
      simp only [criteriaOpOf, SetOp.Means, any_eq_true, Bool.not_eq_true', ← unmatched]
      constructor
      · intro found
        obtain ⟨entry, member, value, known, result⟩ := found
        refine ⟨(entry.1, value), ?_, result⟩
        exact mem_propsOf.mpr ⟨entry.2, AList.mem_lookup_iff.mpr member, known⟩
      · intro found
        obtain ⟨prop, member, result⟩ := found
        obtain ⟨values, isIn, known⟩ := mem_propsOf.mp member
        exact ⟨⟨prop.1, values⟩, AList.mem_lookup_iff.mp isIn, prop.2, known, result⟩

theorem means_of_lastDecides (decides : LastDecides env crt op) (props : List (String × String)) :
    op.Means (matchesProp env) (keptItems crt) props ↔
      op.Means (matchesProp env) (crt.valueSlice.map keyValue) props := by
  by_cases isAll : op = .containsAll
  · rw [isAll] at decides ⊢
    rcases decides with ⟨key, last, found, never⟩ | narrower
    · have absent : ¬ SetOp.Present (matchesProp env) props (key, last) := by
        intro present
        obtain ⟨prop, _, isMatched⟩ := present
        have value := (Bool.and_eq_true_iff.mp isMatched).2
        rw [never] at value
        cases value
      constructor
      · intro all
        exact absurd (all _ (mem_keptItems.mpr found)) absent
      · intro all
        exact absurd (all _ (kvMapOf_listed found)) absent
    · apply containsAll_of_narrower keptItems_subset
      intro item member
      obtain ⟨last, found⟩ := kvMapOf_each member
      refine ⟨(item.1, last), mem_keptItems.mpr found, ?_⟩
      intro prop isMatched
      obtain ⟨sameKey, value⟩ := Bool.and_eq_true_iff.mp isMatched
      exact Bool.and_eq_true_iff.mpr ⟨sameKey, narrower item member last found prop.2 value⟩
  · have wider : LastIsWider env crt := by
      cases op with
      | containsAll => exact absurd rfl isAll
      | containsAny | notContainsAny | containsOtherThan => exact decides
    apply means_of_wider keptItems_subset _ isAll
    intro item member
    obtain ⟨last, found⟩ := kvMapOf_each member
    refine ⟨(item.1, last), mem_keptItems.mpr found, ?_⟩
    intro prop isMatched
    obtain ⟨sameKey, value⟩ := Bool.and_eq_true_iff.mp isMatched
    exact Bool.and_eq_true_iff.mpr ⟨sameKey, wider item member last found prop.2 value⟩

/-- The kept items mean what all items mean, for every object with one value
for each key. -/
def KeptItemsDo (env : AdmEnv) (crt : AdmCriterion) (op : SetOp) : Prop :=
  ∀ propMap : GoMap String String, ∀ props : List (String × String),
    (∀ prop, prop ∈ props ↔ propMap.lookup prop.1 = some prop.2) →
      (op.Means (matchesProp env) (keptItems crt) props ↔
        op.Means (matchesProp env) (crt.valueSlice.map keyValue) props)

theorem lastIsWider_of_kept (notAll : op ≠ .containsAll)
    (same : KeptItemsDo env crt op) : LastIsWider env crt := by
  intro item member last found text isMatched
  have only : ∀ prop, prop ∈ [(item.1, text)] ↔
      ((∅ : GoMap String String).insert item.1 text).lookup prop.1 = some prop.2 := by
    intro prop
    rw [mem_singleton]
    constructor
    · intro isIt
      rw [isIt, AList.lookup_insert]
    · intro known
      rw [Table.lookup_insert] at known
      split at known
      next sameKey => exact Prod.ext sameKey (Option.some.inj known).symm
      · cases known
  have alike := matched_alike (fun other => mem_singleton) notAll (same _ _ only)
  obtain ⟨other, kept, matchesOther⟩ := alike.mpr ⟨item, member, by
    simp [matchesProp, isMatched]⟩
  obtain ⟨sameKey, value⟩ := Bool.and_eq_true_iff.mp matchesOther
  have isLast := mem_keptItems.mp kept
  rw [of_decide_eq_true sameKey, found] at isLast
  rw [Option.some.inj isLast]
  exact value

theorem lastIsNarrower_of_kept (same : KeptItemsDo env crt .containsAll) :
    LastIsNarrower env crt := by
  by_cases never : ∃ key last, (kvMapOf crt).lookup key = some last ∧
      ∀ text, valueMatches env last text = false
  · exact Or.inl never
  right
  intro item member last found text isMatched
  have satisfiable : ∀ value, (∃ key, (kvMapOf crt).lookup key = some value) →
      ∃ text, valueMatches env value text = true := by
    intro value known
    obtain ⟨key, isLast⟩ := known
    by_contra none
    apply never
    refine ⟨key, value, isLast, ?_⟩
    intro text
    cases result : valueMatches env value text with
    | false => rfl
    | true => exact absurd ⟨text, result⟩ none
  classical
  let textOf := fun (key value : String) =>
    if key = item.1 then text
    else if known : ∃ text, valueMatches env value text = true then known.choose
    else ""
  let propMap := Table.mapValues textOf (kvMapOf crt)
  let props := propMap.entries.map fun entry => (entry.1, entry.2)
  have isProp : ∀ prop, prop ∈ props ↔ propMap.lookup prop.1 = some prop.2 :=
    fun prop => Table.mem_pairs
  have lookup : ∀ key, propMap.lookup key = ((kvMapOf crt).lookup key).map (textOf key) :=
    fun key => Table.lookup_mapValues textOf
  have all : SetOp.Means (matchesProp env) (keptItems crt) props .containsAll := by
    intro other kept
    have isLast := mem_keptItems.mp kept
    refine ⟨(other.1, textOf other.1 other.2), ?_, ?_⟩
    · apply (isProp _).mpr
      rw [lookup, isLast]
      rfl
    · apply Bool.and_eq_true_iff.mpr
      refine ⟨by simp, ?_⟩
      by_cases sameKey : other.1 = item.1
      · rw [sameKey, found] at isLast
        rw [← Option.some.inj isLast]
        simpa [textOf, sameKey] using isMatched
      · have known := satisfiable other.2 ⟨other.1, isLast⟩
        simp only [textOf, sameKey, if_false, known, dif_pos]
        exact known.choose_spec
  obtain ⟨prop, inProps, matchesItem⟩ := (same propMap props isProp).mp all item member
  obtain ⟨sameKey, value⟩ := Bool.and_eq_true_iff.mp matchesItem
  have known := (isProp prop).mp inProps
  rw [← of_decide_eq_true sameKey, lookup, found] at known
  have isText : prop.2 = text := by
    rw [← Option.some.inj known]
    simp [textOf]
  rw [isText] at value
  exact value

theorem lastDecides_of_kept (same : KeptItemsDo env crt op) : LastDecides env crt op := by
  cases op with
  | containsAll => exact lastIsNarrower_of_kept same
  | containsAny | notContainsAny | containsOtherThan => exact lastIsWider_of_kept (by decide) same

theorem singleValues_lookup (key : String) :
    (singleValues propMap).lookup key = (propMap.lookup key).map fun value => [value] := by
  apply ((LastWins.lookup_foldl_insert _ ∅).trans Option.or_none).trans
  cases last : LastWins.last Sigma.fst propMap.entries key with
  | none =>
    cases found : propMap.lookup key with
    | none => rfl
    | some value =>
      exact absurd rfl (LastWins.last_eq_none_iff.mp last _ (AList.mem_lookup_iff.mp found))
  | some entry =>
    obtain ⟨member, rfl⟩ := LastWins.last_mem last
    rw [AList.mem_lookup_iff.mpr member]
    rfl

theorem singleValues_hasValues : HasValues (singleValues propMap) := by
  intro key values found
  rw [singleValues_lookup] at found
  obtain ⟨value, _, rfl⟩ := Option.map_eq_some_iff.mp found
  exact cons_ne_nil _ _

theorem mem_propsOf_single :
    prop ∈ propsOf (singleValues propMap) ↔ propMap.lookup prop.1 = some prop.2 := by
  rw [mem_propsOf, singleValues_lookup]
  cases propMap.lookup prop.1 with
  | none => simp
  | some value => simp [eq_comm]

/-- A set criterion of admission means what its operator says about sets: for
maps if and only if the last value listed for a key stands for all that are
listed for it, and for images if and only if `containsOtherThan` is not asked
of values that match different images. -/
theorem set_operators_mean_sets_iff (env : AdmEnv) (crt : AdmCriterion)
    (op : SetOp) (isOp : crt.op = criteriaOpOf op) (listed : crt.valueSlice ≠ []) :
    (∀ valueSet, (isSetCriterionMet env crt valueSet).1 = true ↔
      op.Means (equalMatch env.toRegexEnv) crt.valueSlice valueSet) ∧
    ((∀ propMap, (isMapCriterionMet env crt propMap).1 = true ↔
      op.Means (matchesProp env) (crt.valueSlice.map keyValue)
        (propsOf (singleValues propMap))) ↔ LastDecides env crt op) ∧
    ((∀ propMap, HasValues propMap → ((isComplexMapCriterionMet env crt propMap).1 = true ↔
        op.Means (matchesProp env) (crt.valueSlice.map keyValue)
          (propsOf propMap))) ↔ LastDecides env crt op) ∧
    ((∀ c, (isImageCriterionMet env crt c).1 = true ↔
      op.Means (matchImageValue env crt.op) crt.valueSlice [c]) ↔
        (op = .containsOtherThan → SameImages env crt)) := by
  have single : (∀ propMap, (isMapCriterionMet env crt propMap).1 = true ↔
      op.Means (matchesProp env) (crt.valueSlice.map keyValue)
        (propsOf (singleValues propMap))) → LastDecides env crt op := by
    intro means
    apply lastDecides_of_kept
    intro propMap props isProp
    have sameProps : ∀ prop, prop ∈ props ↔ prop ∈ propsOf (singleValues propMap) := fun prop =>
      (isProp prop).trans (mem_propsOf_single propMap prop).symm
    have kept := (isComplexMapCriterionMet_kept isOp listed
      (singleValues_hasValues propMap)).symm.trans (means propMap)
    have elements : ∀ items, op.Means (matchesProp env) items props ↔
        op.Means (matchesProp env) items (propsOf (singleValues propMap)) := by
      intro items
      exact means_elements sameProps
    rw [elements, elements]
    exact kept
  have several : LastDecides env crt op → ∀ propMap, HasValues propMap →
      ((isComplexMapCriterionMet env crt propMap).1 = true ↔
        op.Means (matchesProp env) (crt.valueSlice.map keyValue) (propsOf propMap)) := by
    intro decides propMap hasValues
    exact (isComplexMapCriterionMet_kept isOp listed hasValues).trans
      (means_of_lastDecides decides _)
  refine ⟨isSetCriterionMet_means isOp listed, ⟨single, ?_⟩, ⟨?_, several⟩,
    isImageCriterionMet_means_iff isOp listed⟩
  · intro decides propMap
    exact several decides _ (singleValues_hasValues propMap)
  · intro means
    apply single
    intro propMap
    exact means _ (singleValues_hasValues propMap)

end Maps

def labelCriterion (op : CriteriaOp) (valueSlice : List String) : AdmCriterion where
  name := .labels
  op := op
  value := ""
  valueSlice := valueSlice
  subCriteria := []

def containerOf (repo : String) : AdmContainerInfo :=
  { plainRequest.container with imageRegistry := ["https://docker.io/"], imageRepo := repo }

/-- Of the values of `app` the last one matches all texts, so that the labels
of an object are compared with what is listed. -/
theorem set_operators_mean_sets_app :
    (isSetCriterionMet plainAdmEnv
      (labelCriterion .containsAny ["app=web", "tier"]) ["tier"]).1 = true ∧
    (isMapCriterionMet plainAdmEnv (labelCriterion .containsAny ["app=web", "app"])
      ((∅ : GoMap String String).insert "app" "web")).1 = true := by
  constructor
  · apply ((set_operators_mean_sets_iff plainAdmEnv
      (labelCriterion .containsAny ["app=web", "tier"]) .containsAny rfl (by decide)).1 _).mpr
    exact ⟨"tier", by decide, "tier", by decide, by decide⟩
  · have means := (set_operators_mean_sets_iff plainAdmEnv
      (labelCriterion .containsAny ["app=web", "app"]) .containsAny rfl (by decide)).2.1.mpr
    apply (means ?_ _).mpr
    · exact ⟨("app", "web"), by decide, ("app", "web"), by decide, by decide⟩
    · intro item listed last found text _
      have keyed : ∀ item ∈ ["app=web", "app"].map keyValue, item.1 = "app" := by decide
      have stored : (kvMapOf (labelCriterion .containsAny ["app=web", "app"])).lookup "app" =
          some "" := by decide
      rw [keyed item listed, stored] at found
      cases found
      rfl

/-- Of two values for one key the first is forgotten, and an image that is
listed contains something other than what is listed. -/
theorem replaced_value_forgotten :
    ¬ ((isMapCriterionMet plainAdmEnv (labelCriterion .containsAny ["app=web", "app=db"])
          ((∅ : GoMap String String).insert "app" "web")).1 = true ↔
        SetOp.Means (matchesProp plainAdmEnv) (["app=web", "app=db"].map keyValue)
          (propsOf (singleValues ((∅ : GoMap String String).insert "app" "web")))
          .containsAny) ∧
      ¬ ((isImageCriterionMet plainAdmEnv (labelCriterion .containsOtherThan ["nginx", "redis"])
          (containerOf "nginx")).1 = true ↔
        SetOp.Means (matchImageValue plainAdmEnv .containsOtherThan)
          ["nginx", "redis"] [containerOf "nginx"] .containsOtherThan) := by
  constructor
  · intro same
    have unmet : (isMapCriterionMet plainAdmEnv (labelCriterion .containsAny ["app=web", "app=db"])
        ((∅ : GoMap String String).insert "app" "web")).1 = false := by decide
    have present := same.mpr ⟨("app", "web"), by decide, ("app", "web"), by decide, by decide⟩
    cases present
  · intro same
    obtain ⟨c, member, unmatched⟩ := same.mp (by decide)
    rw [mem_singleton.mp member] at unmatched
    have wrong := unmatched "nginx" mem_cons_self
    exact absurd wrong (by decide)

end NeuVector.Controller
