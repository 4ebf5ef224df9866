import Lqxp.Data.Text

/-!
This module contains the errors of the HTTP services.
-/

namespace Lqxp

structure ApiError where
  statusCode : Nat
  message : String
  deriving DecidableEq

namespace ApiError

def badRequest (message : String) : ApiError := { statusCode := 400, message }

def unauthorized (message : String) : ApiError := { statusCode := 401, message }

def forbidden (message : String) : ApiError := { statusCode := 403, message }

def tooManyRequests (message : String) : ApiError := { statusCode := 429, message }

def internal : ApiError :=
  { statusCode := 500, message := "An internal error occurred. Please try again later." }

end ApiError

abbrev ApiResult (α : Type) := Except ApiError α

end Lqxp
