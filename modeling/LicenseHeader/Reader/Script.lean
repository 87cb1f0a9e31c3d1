import LicenseHeader.Reader.Basic

/-!
# Scripts

The events that a reader will meet form a script. What a script amounts to is the content
that it delivers; how it cuts that content, and where it is interrupted, is left open.

## Main definitions

* `Event.contentOf`: all bytes of a script.
* `Event.isHardFailure`: failures that a caller sees.
* `Event.Delivers`: scripts that deliver a content without failure or pause.
-/

namespace LicenseHeader.Event

/-- The bytes that arrive with an event. -/
def bytes : Event → Bytes
  | .data bytes => bytes
  | .failure _ => []
  | .ended => []

/-- All bytes of a script. -/
def contentOf (script : List Event) : Bytes :=
  script.flatMap bytes

/-- Whether an event brings bytes or is an interruption. -/
def isDelivery : Event → Bool
  | .data bytes => !bytes.isEmpty
  | .failure f => f.isInterruption
  | .ended => false

/-- Whether an event is a failure that is handed on, and not tried again. -/
def isHardFailure : Event → Bool
  | .data _ => false
  | .failure f => !f.isInterruption
  | .ended => false

/-- A script that delivers a content: data of at least one byte each, which make up the
content, and any number of interruptions. -/
def Delivers (script : List Event) (content : Bytes) : Prop :=
  (∀ event ∈ script, event.isDelivery = true) ∧ contentOf script = content

end LicenseHeader.Event
