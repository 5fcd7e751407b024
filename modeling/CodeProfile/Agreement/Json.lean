import CodeProfile.Json
import CodeProfile.Agreement

/-!
# Agreement as JSON
-/

namespace CodeProfile

open Json

namespace Tolerance

def id : Tolerance → String
  | exact => "exact"
  | absolute => "absolute"
  | relative => "relative"
  | advisory => "advisory"

end Tolerance

namespace AgreementCheck

def toJson (c : AgreementCheck) : Json :=
  .object [("field", .string c.field), ("source", .string c.source), ("target", .string c.target),
    ("delta", .float c.delta), ("tolerance", .string c.tolerance.id), ("passed", .bool c.passed)]

end AgreementCheck

namespace AgreementReport

def toJson (r : AgreementReport) : Json :=
  .object [("isValid", .bool r.isValid), ("checks", ofList AgreementCheck.toJson r.checks),
    ("warnings", strings r.warnings)]

end AgreementReport

end CodeProfile
