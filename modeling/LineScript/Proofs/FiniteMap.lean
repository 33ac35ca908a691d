import Mathlib.Data.List.Dedup
import LineScript.Store
import LineScript.Proofs.ByteOrder

/-!
# The store as a finite map

A store that variables have been defined in, one after the other, is the finite map that takes each
name to the value of its last definition. Look-ups, the number of variables and their listing all
follow from this: `ofDefinitions_isFiniteMap`.

One definition changes one look-up, and a look-up after all of them is found by induction on their
number. The listing is in the order of the names, byte by byte, and of two lists in that order with
the same members there is only one, so the order of the definitions leaves no trace in it.
-/

namespace LineScript

/-- The value of the last definition of a name. -/
def lastValue? (definitions : List (String × Int64)) (name : String) : Option Int64 :=
  ((definitions.filter fun definition => definition.1 = name).getLast?).map Prod.snd

theorem lastValue?_cons (first : String × Int64) (rest : List (String × Int64)) (name : String) :
    lastValue? (first :: rest) name =
      (lastValue? rest name).or (if first.1 = name then some first.2 else none) := by
  unfold lastValue?
  by_cases same : first.1 = name
  · rw [List.filter_cons_of_pos (by simpa using same), List.getLast?_cons, if_pos same]
    cases (rest.filter fun definition => definition.1 = name).getLast? with
    | none => rfl
    | some last => rfl
  · rw [List.filter_cons_of_neg (by simpa using same), if_neg same, Option.or_none]

theorem lastValue?_isSome_iff {definitions : List (String × Int64)} {name : String} :
    (lastValue? definitions name).isSome ↔ name ∈ definitions.map Prod.fst := by
  induction definitions with
  | nil => simp [lastValue?]
  | cons first rest ih =>
      rw [lastValue?_cons, Option.isSome_or, Bool.or_eq_true, ih, List.map_cons, List.mem_cons,
        eq_comm (a := name)]
      split
      · next same => simp [same]
      · next other => simp [other]

namespace Store

variable {store other : Store} {definitions : List (String × Int64)}

/-- The store after definitions, one after the other. -/
def ofDefinitions (definitions : List (String × Int64)) : Store :=
  definitions.foldl (fun store definition => store.set definition.1 definition.2) empty

/-! ## Look-ups -/

/-- A look-up finds the last definition, or what was there before all of them. -/
theorem get?_foldl_set (definitions : List (String × Int64)) (store : Store) (name : String) :
    (definitions.foldl (fun store definition => store.set definition.1 definition.2) store).get?
        name =
      (lastValue? definitions name).or (store.get? name) := by
  induction definitions generalizing store with
  | nil => rfl
  | cons first rest ih =>
      rw [List.foldl_cons, ih, get?_set, lastValue?_cons, Option.or_assoc]
      split
      · rw [Option.some_or]
      · rw [Option.none_or]

theorem get?_ofDefinitions (definitions : List (String × Int64)) (name : String) :
    (ofDefinitions definitions).get? name = lastValue? definitions name := by
  rw [ofDefinitions, get?_foldl_set, get?_empty, Option.or_none]

theorem contains_eq_isSome (store : Store) (name : String) :
    store.contains name = (store.get? name).isSome :=
  Std.TreeMap.contains_eq_isSome_getElem?

/-! ## Listings -/

theorem mem_toList {name : String} {value : Int64} :
    (name, value) ∈ store.toList ↔ store.get? name = some value :=
  Std.TreeMap.mem_toList_iff_getElem?_eq_some

/-- The names are listed in their order. -/
theorem toList_sorted (store : Store) :
    store.toList.Pairwise fun left right => left.1 < right.1 := by
  have ordered := Std.TreeMap.ordered_keys_toList (t := store.table)
  exact ordered.imp fun less => compareOfLessAndEq_eq_lt.mp less

/-- No name is listed twice. -/
theorem nodup_names (store : Store) : (store.toList.map Prod.fst).Nodup := by
  rw [List.nodup_iff_pairwise_ne, List.pairwise_map]
  refine store.toList_sorted.imp fun less same => ?_
  rw [same] at less
  exact String.lt_irrefl _ less

/-- A name is listed if it has a value. -/
theorem mem_names {name : String} :
    name ∈ store.toList.map Prod.fst ↔ (store.get? name).isSome := by
  rw [List.mem_map, Option.isSome_iff_exists]
  constructor
  · rintro ⟨⟨_, value⟩, mem, rfl⟩
    exact ⟨value, mem_toList.mp mem⟩
  · rintro ⟨value, found⟩
    exact ⟨(name, value), mem_toList.mpr found, rfl⟩

/-- There is one listing of the same values. -/
theorem toList_eq_iff :
    store.toList = other.toList ↔ ∀ name, store.get? name = other.get? name := by
  constructor
  · intro same name
    refine Option.ext fun value => ?_
    rw [← mem_toList, ← mem_toList, same]
  · intro same
    have members (entry : String × Int64) : entry ∈ store.toList ↔ entry ∈ other.toList := by
      obtain ⟨name, value⟩ := entry
      rw [mem_toList, mem_toList, same]
    have apart (store : Store) : store.toList.Nodup := (nodup_names store).of_map _
    have perm := (List.perm_ext_iff_of_nodup (apart store) (apart other)).mpr members
    refine perm.eq_of_pairwise ?_ store.toList_sorted other.toList_sorted
    intro left right _ _ less less'
    exact absurd less' (String.lt_asymm less)

theorem size_eq_length (store : Store) : store.size = store.toList.length :=
  Std.TreeMap.length_toList.symm

/-- The size is the number of the names that have been defined. -/
theorem size_ofDefinitions (definitions : List (String × Int64)) :
    (ofDefinitions definitions).size = (definitions.map Prod.fst).dedup.length := by
  have members (name : String) :
      name ∈ (ofDefinitions definitions).toList.map Prod.fst ↔
        name ∈ (definitions.map Prod.fst).dedup := by
    rw [mem_names, get?_ofDefinitions, lastValue?_isSome_iff, List.mem_dedup]
  have perm := (List.perm_ext_iff_of_nodup (nodup_names _) (List.nodup_dedup _)).mpr members
  rw [size_eq_length, ← List.length_map (f := Prod.fst), perm.length_eq]

/-- A store that variables have been defined in takes each name to its last value. -/
structure IsFiniteMap (store : Store) (definitions : List (String × Int64)) : Prop where
  get : ∀ name, store.get? name = lastValue? definitions name
  contains : ∀ name, store.contains name = (lastValue? definitions name).isSome
  read : ∀ ref, store.read ref =
    (lastValue? definitions ref.name).elim (.error ⟨.undeclared ref.name, ref.pos⟩) .ok
  /-- Each name counts once. -/
  size : store.size = (definitions.map Prod.fst).dedup.length
  listed : ∀ name value, (name, value) ∈ store.toList ↔ lastValue? definitions name = some value
  /-- The listing is in the order of the bytes of the names, so each is listed once. -/
  ascending : store.toList.Pairwise fun left right => utf8 left.1 < utf8 right.1
  /-- Definitions in any other order give the same listing exactly if the last values are the
  same. -/
  unordered : ∀ others, (ofDefinitions others).toList = store.toList ↔
    ∀ name, lastValue? others name = lastValue? definitions name

theorem ofDefinitions_isFiniteMap (definitions : List (String × Int64)) :
    (ofDefinitions definitions).IsFiniteMap definitions where
  get := get?_ofDefinitions definitions
  contains name := by rw [contains_eq_isSome, get?_ofDefinitions]
  read ref := by
    rw [Store.read, get?_ofDefinitions]
    cases lastValue? definitions ref.name with
    | some value => rfl
    | none => rfl
  size := size_ofDefinitions definitions
  listed name value := by rw [mem_toList, get?_ofDefinitions]
  ascending := (toList_sorted _).imp utf8_lt
  unordered others := by simp only [toList_eq_iff, get?_ofDefinitions]

end Store

end LineScript
