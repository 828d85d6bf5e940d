import Harusali.Controller.UIKit
import Harusali.Firebase.Auth

set_option autoImplicit false

/-! # The sign-in screen

The handlers of `SignInVC`, which is also what `MainVC` instantiates under its former name
`ViewController`. -/

namespace Harusali

/-- The text fields of a `SignInVC`. -/
structure SignInVC where
  idTextField : UITextField := {}
  passWordTextField : UITextField := {}
  deriving DecidableEq, Repr

/-- A `signIn` call in flight. Its completion block captured the controller only; `call` numbers the
    calls in the order they were made. -/
structure SignInRequest where
  withEmail : String
  password : String
  call : Nat
  deriving DecidableEq, Repr

namespace SignInVC

inductive Field where
  | idTextField
  | passWordTextField
  deriving DecidableEq, Repr

/-- The user leaves `text` in a field. -/
def edit (self : SignInVC) (field : Field) (text : String) : SignInVC :=
  match field with
  | .idTextField => { self with idTextField := { text := some text } }
  | .passWordTextField => { self with passWordTextField := { text := some text } }

/-- `tapLoginBT(_:)`; `none` where one of the two forced unwrappings traps. -/
def tapLoginBT (self : SignInVC) (call : Nat) : Option SignInRequest := do
  let email ← self.idTextField.text
  let password ← self.passWordTextField.text
  return { withEmail := email, password, call }

/-- The completion block of `signIn`: the controller with its text fields reset, and whether it was
    dismissed. -/
def closure (_self : SignInVC) (user : Option AuthDataResult) (_error : Option NSError) :
    SignInVC × Bool :=
  ({ idTextField := { text := some "" }, passWordTextField := { text := some "" } }, user.isSome)

/-- The force-unwrapped texts are there. -/
structure Filled (vc : SignInVC) : Prop where
  id : vc.idTextField.text.isSome = true
  password : vc.passWordTextField.text.isSome = true

theorem Filled.edit {self : SignInVC} (h : self.Filled) (field : Field) (text : String) :
    (self.edit field text).Filled := by
  cases field with
  | idTextField => exact ⟨rfl, h.password⟩
  | passWordTextField => exact ⟨h.id, rfl⟩

/-- With both texts there neither unwrapping traps. -/
theorem Filled.tapLoginBT {self : SignInVC} (h : self.Filled) (call : Nat) :
    ∃ r, self.tapLoginBT call = some r := by
  obtain ⟨email, hemail⟩ := Option.isSome_iff_exists.1 h.id
  obtain ⟨password, hpassword⟩ := Option.isSome_iff_exists.1 h.password
  exact ⟨⟨email, password, call⟩, by simp [SignInVC.tapLoginBT, hemail, hpassword]⟩

end SignInVC

end Harusali
