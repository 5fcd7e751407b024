import CodeProfile.Painter
import CodeProfile.Agreement

/-!
# Summaries of agreement

The verdict on a counterpart, one line for each check, and the warnings.
-/

namespace CodeProfile.AgreementReport

variable (r : AgreementReport) (p : Painter)

def verdict : String :=
  if r.isValid then p.paint .success "valid" else p.paint .failure "invalid"

/-- The mark in front of a check. -/
def mark (c : AgreementCheck) : String :=
  if c.passed then p.paint .success "ok"
  else if c.tolerance = .advisory then p.paint .warning "~~"
  else p.paint .failure "xx"

def checkLine (c : AgreementCheck) : String :=
  "  " ++ mark p c ++ " " ++ Painter.padTo 22 c.field ++ " " ++ c.source ++ " -> " ++ c.target

def warningLine (w : String) : String := "  " ++ p.paint .warning "warning:" ++ " " ++ w

/-- The summary, each line ended. -/
def summary : String :=
  String.join (([p.paint .header "Translation" ++ " " ++ r.verdict p]
    ++ r.checks.map (checkLine p) ++ r.warnings.map (warningLine p)).map (· ++ "\n"))

end CodeProfile.AgreementReport
