/-
**A record that is stored field by field.**

A `Field` has a key, a way to read its value from a record and a way to write one into a record, which
fails on a value of another type. `storeFields` writes the fields of a record under their keys, and
`loadFields` reads them into another record.

* `get_storeFields`: under distinct keys, every field is found under its own;
* `loadFields_storeFields`: and loading copies the fields of the stored record.
-/

import NabBridge.Lib.Store

namespace NabBridge

/-- One field of a record. -/
structure Field (κ ν ρ : Type) where
  key : κ
  read : ρ → ν
  write : ν → ρ → Option ρ

section Fields

variable {κ ν ρ : Type} [LinearOrder κ]

/-- Write the fields of a record into a store. -/
def storeFields (fields : List (Field κ ν ρ)) (record : ρ) (store : Store κ ν) : Store κ ν :=
  fields.foldl (fun store field => store.set field.key (field.read record)) store

/-- Read the fields from a store into a record. -/
def loadFields (fields : List (Field κ ν ρ)) (store : Store κ ν) (start : ρ) : Option ρ :=
  fields.foldlM (fun record field => (store.get field.key).bind fun value => field.write value record)
    start

omit [LinearOrder κ] in
/-- Write the fields of one record into another one. -/
def copyFields (fields : List (Field κ ν ρ)) (record start : ρ) : Option ρ :=
  fields.foldlM (fun copy field => field.write (field.read record) copy) start

/-- **Every field is found under its key**, where no two keys are the same. -/
theorem get_storeFields {fields : List (Field κ ν ρ)} (distinct : (fields.map Field.key).Nodup)
    {field : Field κ ν ρ} (member : field ∈ fields) (record : ρ) (store : Store κ ν) :
    (storeFields fields record store).get field.key = some (field.read record) := by
  have written : storeFields fields record store =
      (fields.map fun field => (field.key, field.read record)).foldl
        (fun current pair => current.set pair.1 pair.2) store := by
    rw [List.foldl_map]
    rfl
  have keys : ((fields.map fun field => (field.key, field.read record)).map Prod.fst).Nodup := by
    rwa [List.map_map]
  rw [written]
  exact Store.get_foldl_set_of_mem store keys
    (List.mem_map_of_mem (f := fun field : Field κ ν ρ => (field.key, field.read record)) member)

/-- **What is stored is what is loaded.** -/
theorem loadFields_storeFields {fields : List (Field κ ν ρ)}
    (distinct : (fields.map Field.key).Nodup) (record start : ρ) (store : Store κ ν) :
    loadFields fields (storeFields fields record store) start = copyFields fields record start := by
  have found := fun field member =>
    @get_storeFields κ ν ρ _ fields distinct field member record store
  generalize storeFields fields record store = written at found
  clear distinct
  unfold loadFields copyFields
  induction fields generalizing start with
  | nil => rfl
  | cons field rest ih =>
      rw [List.foldlM_cons, List.foldlM_cons, found field List.mem_cons_self, Option.bind_some]
      exact congrArg _ (funext fun next =>
        ih next fun other member => found other (List.mem_cons_of_mem _ member))

end Fields

end NabBridge
