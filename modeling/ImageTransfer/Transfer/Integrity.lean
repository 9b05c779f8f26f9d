import ImageTransfer.Exchange.World

/-!
# Integrity

Content that was downloaded is compared with the digest that it was asked for by. What a mismatch
means is up to the policy: a warning in the log, or the end of the operation.
-/

namespace ImageTransfer.Transfer

open Exchange

/-- Compares a declared digest with the digest of what was received, and says whether they agree. -/
def checkDigest (policy : IntegrityPolicy) (what expected actual : String) : Exchange Bool :=
  if expected = actual then pure true
  else
    let mismatch := Failure.mismatch what expected actual
    match policy with
    | .strict => throw mismatch
    | .warn => do
      log .integrity .warning (mismatch.message.getD "")
      return false

end ImageTransfer.Transfer
