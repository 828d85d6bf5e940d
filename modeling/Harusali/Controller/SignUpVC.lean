import Harusali.Controller.UIKit
import Harusali.Firebase.Firestore

set_option autoImplicit false

/-! # The sign-up screen

The handlers of `SignUpVC`, each a function of the text fields it reads and of the values its
closures captured. An asynchronous call is a value: the request, carrying what its completion
block captured. What the block then does when the answer arrives is an `Effect`. -/

namespace Harusali

namespace UserReference

def email : String := "Email"
def name : String := "Name"
def balance : String := "Balance"

end UserReference

/-- The text fields of a `SignUpVC`. -/
structure SignUpVC where
  nameTextField : UITextField := {}
  emailTextField : UITextField := {}
  passWordTextField : UITextField := {}
  deriving DecidableEq, Repr

/-- The closure `signUpBtTap` passes to `signUp`, told apart by the controller it captured and by
    the call of `signUp` it belongs to. -/
structure Completion where
  signUpVC : Nat
  attempt : Nat
  deriving DecidableEq, Repr

/-- A `createUser` call in flight, with the variables its completion block captured. -/
structure CreateUserRequest where
  withEmail : String
  password : String
  email : String
  name : String
  balance : String
  completion : Completion
  deriving DecidableEq, Repr

/-- A `setData` call in flight, with the closure its completion block captured. -/
structure SetDataRequest where
  path : DocumentPath
  data : DocumentData
  completion : Completion
  deriving DecidableEq, Repr

/-- What a completion block of `signUp` does. -/
inductive Effect where
  | doNothing
  | setData (request : SetDataRequest)
  | completion (completion : Completion) (result : Result NSError)
  deriving DecidableEq, Repr

namespace SignUpVC

inductive Field where
  | nameTextField
  | emailTextField
  | passWordTextField
  deriving DecidableEq, Repr

/-- The user leaves `text` in a field. -/
def edit (self : SignUpVC) (field : Field) (text : String) : SignUpVC :=
  match field with
  | .nameTextField => { self with nameTextField := { text := some text } }
  | .emailTextField => { self with emailTextField := { text := some text } }
  | .passWordTextField => { self with passWordTextField := { text := some text } }

def balance (_ : SignUpVC) : String := "0"

/-- `signUp(email:password:name:balance:completion:)`. The address and the password are read again
    from the text fields, so the arguments of these names go unused. -/
def signUp (self : SignUpVC) (_email _password name balance : String) (completion : Completion) :
    Option CreateUserRequest := do
  let email ← self.emailTextField.text
  let password ← self.passWordTextField.text
  return { withEmail := email, password, email, name, balance, completion }

/-- `signUpBtTap(_:)`; `none` when a guard fails and no call is made. -/
def signUpBtTap (self : SignUpVC) (completion : Completion) : Option CreateUserRequest := do
  let email ← self.emailTextField.text
  let password ← self.passWordTextField.text
  let name ← self.nameTextField.text
  self.signUp email password name self.balance completion

/-- The texts the guards unwrap are there. -/
structure Filled (vc : SignUpVC) : Prop where
  name : vc.nameTextField.text.isSome = true
  email : vc.emailTextField.text.isSome = true
  password : vc.passWordTextField.text.isSome = true

theorem Filled.edit {self : SignUpVC} (h : self.Filled) (field : Field) (text : String) :
    (self.edit field text).Filled := by
  cases field with
  | nameTextField => exact ⟨rfl, h.email, h.password⟩
  | emailTextField => exact ⟨h.name, rfl, h.password⟩
  | passWordTextField => exact ⟨h.name, h.email, rfl⟩

/-- With all texts there no guard fails. -/
theorem Filled.signUpBtTap {self : SignUpVC} (h : self.Filled) (completion : Completion) :
    ∃ r, self.signUpBtTap completion = some r := by
  obtain ⟨name, hname⟩ := Option.isSome_iff_exists.1 h.name
  obtain ⟨email, hemail⟩ := Option.isSome_iff_exists.1 h.email
  obtain ⟨password, hpassword⟩ := Option.isSome_iff_exists.1 h.password
  exact ⟨⟨email, password, email, name, self.balance, completion⟩, by
    simp [SignUpVC.signUpBtTap, signUp, hname, hemail, hpassword]⟩

/-- What a tap sends: the fields as they are at the tap. -/
theorem signUpBtTap_eq_some {self : SignUpVC} {completion : Completion} {r : CreateUserRequest}
    (h : self.signUpBtTap completion = some r) :
    self.emailTextField.text = some r.withEmail ∧ self.passWordTextField.text = some r.password ∧
      self.nameTextField.text = some r.name ∧ r.email = r.withEmail ∧ r.balance = self.balance ∧
      r.completion = completion := by
  obtain ⟨⟨name⟩, ⟨email⟩, ⟨password⟩⟩ := self
  cases email with
  | none => simp [signUpBtTap] at h
  | some email =>
      cases password with
      | none => simp [signUpBtTap] at h
      | some password =>
          cases name with
          | none => simp [signUpBtTap] at h
          | some name =>
              simp only [signUpBtTap, signUp, Option.pure_def, Option.bind_eq_bind,
                Option.bind_some, Option.some.injEq] at h
              subst h
              exact ⟨rfl, rfl, rfl, rfl, rfl, rfl⟩

end SignUpVC

/-- The completion block of `createUser`. -/
def CreateUserRequest.closure (r : CreateUserRequest) (result : Option AuthDataResult)
    (error : Option NSError) : Effect :=
  match error with
  | some error => .completion r.completion (.failure error)
  | none =>
      match result.map (·.user) with
      | none => .doNothing
      | some user =>
          .setData
            { path := ⟨"User", user.uid⟩
              data := [(UserReference.email, r.email),
                       (UserReference.name, r.name),
                       (UserReference.balance, r.balance)]
              completion := r.completion }

/-- The completion block of `setData`. -/
def SetDataRequest.closure (r : SetDataRequest) (error : Option NSError) : Effect :=
  match error with
  | some error => .completion r.completion (.failure error)
  | none => .completion r.completion (.success "Success")

/-! ## Alerts -/

/-- The methods of `SignUpVC` an alert button calls. -/
inductive SignUpVC.Method where
  | backToLogin
  deriving DecidableEq, Repr

namespace SignUpVC

def successSignUpAlert : UIAlertController Method where
  title := "알림"
  message := "회원가입 하시겠습니까?"
  actions := [{ title := "취소", style := .cancel, handler := none },
              { title := "확인", style := .destructive, handler := some .backToLogin }]

def failureSignUpAlert : UIAlertController Method where
  title := "알림"
  message := "다시 입력해주세요!"
  actions := [{ title := "확인", style := .cancel, handler := none }]

/-- The closure of `signUpBtTap`: the alert shown for a result. -/
def completionAlert : Result NSError → UIAlertController Method
  | .failure _ => failureSignUpAlert
  | .success _ => successSignUpAlert

end SignUpVC

end Harusali
