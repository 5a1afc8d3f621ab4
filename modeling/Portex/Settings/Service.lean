import Portex.Foundation.JsonDict
import Portex.Foundation.TextFile

/-!
# The settings service

`SettingsService` keeps each group of settings as a JSON object in a file of its own. A write checks
the size of the encoded object, and stores it with a new line at its end; a read checks the size of
the file.

## Main definitions

* `SettingsService.readJson`, `SettingsService.writeJson`: a file of settings
* `SettingsService.ReadsBack`: what is written is read

## Main results

* `SettingsService.readsBack_iff`: the objects that are read back
-/

namespace Portex

open Foundation

inductive SettingsError
  /-- `ValueError`. -/
  | value (detail : String)
  deriving DecidableEq

structure SettingsService where
  maxFileSizeBytes : ℕ := 256 * 1024

namespace SettingsService

variable (service : SettingsService)

/-- `_read_json`, for the text of the file, where it exists. -/
def readJson (file : Option (List Char)) (defaultPayload : Dict (List Char) Json) :
    Except SettingsError (Dict (List Char) Json) :=
  match file with
  | none => .ok defaultPayload
  | some text =>
    if sizeOf8 text > service.maxFileSizeBytes then
      .error (.value "settings file exceeds size limit")
    else
      match loads (universalNewlines text) with
      | some (.object payload) => .ok (defaultPayload.insertAll (Dict.ofItems payload).items)
      | _ => .error (.value "invalid settings file")

/-- `_write_json`: the new text of the file. -/
def writeJson (payload : Dict (List Char) Json) : Except SettingsError (List Char) :=
  let encoded := dumps (.object payload.items)
  if sizeOf8 encoded > service.maxFileSizeBytes then
    .error (.value "settings file exceeds size limit")
  else .ok (encoded ++ ['\n'])

/-- Where an object is written, it is read, with the defaults of the names it does not have. -/
def ReadsBack (payload defaultPayload : Dict (List Char) Json) : Prop :=
  ∀ text, service.writeJson payload = .ok text →
    ∃ merged, service.readJson (some text) defaultPayload = .ok merged ∧
      ∀ name, (merged.get? name).map Json.sorted =
        ((payload.get? name).or (defaultPayload.get? name)).map Json.sorted

variable {service} {payload defaultPayload : Dict (List Char) Json}

/-- The text of an object is read as it is written. -/
theorem loads_written (h : WrittenDict payload) :
    loads (universalNewlines (dumps (.object payload.items) ++ ['\n'])) =
      some (.object ((sortedMembers payload.items).insertionSort nameLE)) := by
  have hwritten : (Json.object payload.items).Written := h
  have hcr : '\r' ∉ dumps (.object payload.items) ++ ['\n'] := by
    have hdumps := cr_notMem_render hwritten.sorted 0
    simp [dumps, hdumps]
  rw [universalNewlines_eq_self.mpr hcr, loads_dumps hwritten, sorted_object_items]

theorem readJson_of_size (h : WrittenDict payload)
    (hsize : sizeOf8 (dumps (.object payload.items)) < service.maxFileSizeBytes) :
    service.readJson (some (dumps (.object payload.items) ++ ['\n'])) defaultPayload =
      .ok (defaultPayload.insertAll (reread payload).items) := by
  have hfits : ¬ sizeOf8 (dumps (.object payload.items) ++ ['\n']) > service.maxFileSizeBytes := by
    rw [sizeOf8_append, sizeOf8_newline]
    omega
  simp only [readJson, if_neg hfits, loads_written h]
  rfl

theorem readJson_of_eq
    (hsize : sizeOf8 (dumps (.object payload.items)) = service.maxFileSizeBytes) :
    service.readJson (some (dumps (.object payload.items) ++ ['\n'])) defaultPayload =
      .error (.value "settings file exceeds size limit") := by
  have hlarge : sizeOf8 (dumps (.object payload.items) ++ ['\n']) > service.maxFileSizeBytes := by
    rw [sizeOf8_append, sizeOf8_newline]
    omega
  simp only [readJson, if_pos hlarge]

/-- **The objects that are read back** are those whose encoding is not as large as the limit. -/
theorem readsBack_iff (h : WrittenDict payload) :
    service.ReadsBack payload defaultPayload ↔
      sizeOf8 (dumps (.object payload.items)) ≠ service.maxFileSizeBytes := by
  constructor
  · intro hreads heq
    have hwrite : service.writeJson payload = .ok (dumps (.object payload.items) ++ ['\n']) :=
      if_neg (by omega)
    obtain ⟨merged, hread, -⟩ := hreads _ hwrite
    rw [readJson_of_eq heq] at hread
    cases hread
  · intro hne text hwrite
    simp only [writeJson] at hwrite
    split at hwrite
    · cases hwrite
    · rename_i hfits
      obtain rfl := Except.ok.inj hwrite
      refine ⟨_, readJson_of_size h (by omega), fun name => ?_⟩
      have hnodup : ((reread payload).items.map Prod.fst).Nodup :=
        (reread payload).map_fst_items ▸ (reread payload).nodup
      rw [Dict.get?_insertAll _ hnodup, Dict.get?_ofItems_items, get?_reread]
      cases payload.get? name with
      | none => rfl
      | some value => simp [value.sorted_sorted]

end SettingsService

end Portex
