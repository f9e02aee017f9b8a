import Lifecycle.Failure

/-!
# Faults of documents

A text that is no document of its language is malformed. A scalar may also be well placed and still
denote nothing, such as a day that the calendar does not have.
-/

namespace Lifecycle

/-- Why a text cannot be read as a document. -/
inductive DocumentFault where
  | malformed
  | scalar (fault : ScalarFault)
  deriving DecidableEq, Repr

end Lifecycle
