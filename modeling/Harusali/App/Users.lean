import Harusali.App.Attempts
import Harusali.App.Session

set_option autoImplicit false

/-! # Who is logged in

The session and the account store together: only users with an account are ever logged in, and
one who has no document is left over from a sign-up that did not finish. -/

namespace Harusali.App

end Harusali.App
