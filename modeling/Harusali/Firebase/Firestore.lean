import Harusali.Firebase.Auth
import Mathlib.Logic.Function.Basic

set_option autoImplicit false

/-! # Firestore

Documents addressed by collection and document id. `setData` without merging replaces the
document; the service either writes it and reports no error, or writes nothing and reports one. -/

namespace Harusali

/-- The `[String : Any]` dictionary handed to `setData`; the app's values are all strings. -/
abbrev DocumentData := List (String × String)

structure DocumentPath where
  collection : String
  document : String
  deriving DecidableEq, Repr

structure Firestore where
  document : DocumentPath → Option DocumentData

namespace Firestore

/-- The store after the service has answered a `setData` with `error`. -/
def setData (db : Firestore) (path : DocumentPath) (data : DocumentData) (error : Option NSError) :
    Firestore :=
  match error with
  | some _ => db
  | none => ⟨Function.update db.document path (some data)⟩

@[simp] theorem setData_self (db : Firestore) (path : DocumentPath) (data : DocumentData) :
    (db.setData path data none).document path = some data :=
  Function.update_self ..

theorem setData_of_ne (db : Firestore) {path path' : DocumentPath} (data : DocumentData)
    (error : Option NSError) (h : path' ≠ path) :
    (db.setData path data error).document path' = db.document path' := by
  cases error with
  | none => exact Function.update_of_ne h _ _
  | some error => rfl

end Firestore

end Harusali
