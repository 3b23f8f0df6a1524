import LanguageService.Table
import Mathlib.Data.List.Nodup

/-! Laws of tables. A table is known by its keys in order and by what each key holds. -/
namespace LanguageService.Table
variable {κ α : Type} [DecidableEq κ]

theorem lookupCons (key other : κ) (value : α) (rest : List (κ × α)) :
    ((key, value) :: rest).lookup other = if other = key then some value else rest.lookup other := by
  rw [List.lookup_cons]
  by_cases same : other = key
  · simp [same]
  · simp [same, beq_eq_false_iff_ne.mpr same]

theorem lookupPlace (key other : κ) (value : α) (entries : List (κ × α)) :
    (place key value entries).lookup other =
      if other = key then some value else entries.lookup other := by
  induction entries with
  | nil => exact lookupCons key other value []
  | cons entry rest ih =>
    obtain ⟨first, old⟩ := entry
    by_cases here : first = key
    · subst first
      rw [place, if_pos rfl, lookupCons, lookupCons]
      split <;> rfl
    · rw [place, if_neg here, lookupCons, lookupCons, ih]
      by_cases found : other = first
      · simp [found, here]
      · simp [found]

theorem getInsert (t : Table κ α) (key other : κ) (value : α) :
    (t.insert key value).get? other = if other = key then some value else t.get? other :=
  lookupPlace key other value t.entries

theorem placeKeys (key : κ) (value : α) (entries : List (κ × α)) :
    (place key value entries).map Prod.fst =
      if key ∈ entries.map Prod.fst then entries.map Prod.fst else entries.map Prod.fst ++ [key] := by
  induction entries with
  | nil => rfl
  | cons entry rest ih =>
    by_cases here : entry.1 = key
    · simp [place, here]
    · by_cases inside : key ∈ rest.map Prod.fst
      · simp [place, here, ih, inside]
      · simp [place, here, Ne.symm here, ih, inside]

/- A key that is there keeps its place; a new one comes last. -/
theorem keysInsert (t : Table κ α) (key : κ) (value : α) :
    (t.insert key value).keys = if key ∈ t.keys then t.keys else t.keys ++ [key] :=
  placeKeys key value t.entries

theorem keysInsertPrefix (t : Table κ α) (key : κ) (value : α) :
    t.keys <+: (t.insert key value).keys := by
  rw [keysInsert]
  split
  · exact List.prefix_refl _
  · exact List.prefix_append _ _

theorem nodupInsert {t : Table κ α} (distinct : t.keys.Nodup) (key : κ) (value : α) :
    (t.insert key value).keys.Nodup := by
  rw [keysInsert]
  split
  · exact distinct
  · rename_i fresh
    simpa using distinct.concat fresh

theorem insertInsert (t : Table κ α) (key : κ) (first second : α) :
    (t.insert key first).insert key second = t.insert key second := by
  have places (entries : List (κ × α)) :
      place key second (place key first entries) = place key second entries := by
    induction entries with
    | nil => simp [place]
    | cons entry rest ih =>
      by_cases here : entry.1 = key <;> simp [place, here, ih]
  exact congrArg Table.mk (places t.entries)

theorem insertHeld {t : Table κ α} {key : κ} {value : α} (held : t.get? key = some value) :
    t.insert key value = t := by
  obtain ⟨entries⟩ := t
  have places : place key value entries = entries := by
    induction entries with
    | nil => cases held
    | cons entry rest ih =>
      obtain ⟨first, old⟩ := entry
      rw [get?, lookupCons] at held
      by_cases here : first = key
      · subst first
        rw [if_pos rfl] at held
        cases held
        rw [place, if_pos rfl]
      · rw [if_neg (Ne.symm here)] at held
        rw [place, if_neg here, ih held]
  exact congrArg Table.mk places

theorem lookupFilter (key other : κ) (entries : List (κ × α)) :
    (entries.filter fun (first, _) => first ≠ key).lookup other =
      if other = key then none else entries.lookup other := by
  induction entries with
  | nil => simp
  | cons entry rest ih =>
    obtain ⟨first, old⟩ := entry
    by_cases here : first = key
    · rw [List.filter_cons_of_neg (by simp [here]), ih, lookupCons]
      by_cases same : other = key <;> simp [same, here]
    · rw [List.filter_cons_of_pos (by simp [here]), lookupCons, lookupCons, ih]
      by_cases found : other = first
      · simp [found, here]
      · simp [found]

theorem getErase (t : Table κ α) (key other : κ) :
    (t.erase key).get? other = if other = key then none else t.get? other :=
  lookupFilter key other t.entries

theorem getEmpty {t : Table κ α} (empty : t.isEmpty = true) (key : κ) : t.get? key = none := by
  rw [get?, List.isEmpty_iff.mp empty]
  rfl

theorem getFilled {t : Table κ α} {key : κ} {value : α} (found : t.get? key = some value) :
    t.isEmpty = false := by
  cases empty : t.isEmpty with
  | false => rfl
  | true => cases (getEmpty empty key).symm.trans found

theorem eraseEmpty {t : Table κ α} (empty : t.isEmpty = true) (key : κ) : t.erase key = t := by
  obtain ⟨entries⟩ := t
  obtain rfl : entries = [] := List.isEmpty_iff.mp empty
  rfl

theorem eraseAbsent {t : Table κ α} {key : κ} (absent : t.get? key = none) : t.erase key = t := by
  refine congrArg Table.mk (List.filter_eq_self.mpr fun entry member => ?_)
  simp only [ne_eq, decide_not, Bool.not_eq_true', decide_eq_false_iff_not]
  rintro rfl
  have listed : (t.get? entry.1).isSome = true := by
    simpa [get?, List.lookup_isSome_iff] using ⟨entry.2, member⟩
  rw [absent] at listed
  cases listed

theorem nodupErase {t : Table κ α} (distinct : t.keys.Nodup) (key : κ) :
    (t.erase key).keys.Nodup :=
  distinct.sublist (List.filter_sublist.map Prod.fst)

theorem memKeys {t : Table κ α} {key : κ} : key ∈ t.keys ↔ ∃ value, t.get? key = some value := by
  have held : (t.get? key).isSome = true ↔ key ∈ t.keys := by
    simp [get?, keys, List.lookup_isSome_iff]
  rw [← held, Option.isSome_iff_exists]

theorem getEntry {t : Table κ α} {key : κ} {value : α} (found : t.get? key = some value) :
    (key, value) ∈ t.entries := by
  obtain ⟨before, after, same, _⟩ := List.lookup_eq_some_iff.mp found
  simp [same]

theorem entryGet {t : Table κ α} (distinct : t.keys.Nodup) {key : κ} {value : α}
    (entry : (key, value) ∈ t.entries) : t.get? key = some value := by
  obtain ⟨other, found⟩ := memKeys.mp (List.mem_map.mpr ⟨_, entry, rfl⟩ : key ∈ t.keys)
  have same := List.inj_on_of_nodup_map distinct entry (getEntry found) rfl
  rw [found, (Prod.mk.inj same).2]

/- Values put in one after another, each under its name: the last one under a name is held. -/
theorem getFold (name : α → κ) (values : List α) (t : Table κ α) (key : κ) :
    (values.foldl (fun t value => t.insert (name value) value) t).get? key =
      (values.reverse.find? (name · = key)).or (t.get? key) := by
  induction values generalizing t with
  | nil => simp
  | cons value rest ih =>
    rw [List.foldl_cons, ih, List.reverse_cons, List.find?_append, Option.or_assoc, getInsert]
    by_cases same : name value = key
    · simp [same]
    · simp [same, Ne.symm same]

/- The names stand in the order in which they first came. -/
theorem keysFold (name : α → κ) (values : List α) (t : Table κ α) :
    (values.foldl (fun t value => t.insert (name value) value) t).keys =
      t.keys ++ ((values.map name).filter (· ∉ t.keys)).eraseDups := by
  induction values generalizing t with
  | nil => simp
  | cons value rest ih =>
    rw [List.foldl_cons, ih, keysInsert, List.map_cons]
    by_cases held : name value ∈ t.keys
    · simp [held]
    · have others : (rest.map name).filter (fun key => decide (key ∉ t.keys ++ [name value])) =
          ((rest.map name).filter fun key => decide (key ∉ t.keys)).filter fun key => !key == name value := by
        rw [List.filter_filter]
        refine List.filter_congr fun key _ => ?_
        by_cases same : key = name value <;> simp [same]
      rw [if_neg held, List.filter_cons_of_pos (by simpa using held), List.eraseDups_cons, ← others,
        List.append_assoc, List.singleton_append]

end LanguageService.Table
