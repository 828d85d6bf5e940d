set_option autoImplicit false

/-! # The parts of UIKit the controllers touch -/

namespace Harusali

/-- `UITextField`. `text` is optional as declared; a new field reads as the empty string. -/
structure UITextField where
  text : Option String := some ""
  deriving DecidableEq, Repr

inductive UIAlertActionStyle where
  | cancel
  | destructive
  deriving DecidableEq, Repr

/-- A button of an alert. `handler` is the method of the presenting controller it calls. -/
structure UIAlertAction (Method : Type) where
  title : String
  style : UIAlertActionStyle
  handler : Option Method
  deriving DecidableEq, Repr

/-- `UIAlertController` in the `.alert` style, its buttons in the order they were added. -/
structure UIAlertController (Method : Type) where
  title : String
  message : String
  actions : List (UIAlertAction Method)
  deriving DecidableEq, Repr

inductive UIModalPresentationStyle where
  | automatic
  | fullScreen
  deriving DecidableEq, Repr

/-- Swift's `Result<String, Error>`. -/
inductive Result (Error : Type) where
  | success (value : String)
  | failure (error : Error)
  deriving DecidableEq, Repr

end Harusali
