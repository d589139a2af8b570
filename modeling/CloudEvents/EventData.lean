import CloudEvents.Bytes
import CloudEvents.Vocabulary

/-!
# Payloads

A payload is bytes, text or a typed message. Its presence counts: an event without a payload differs
from one whose payload is empty.
-/

namespace CloudEvents

/-- A message of another schema: the URL of its type, and its bytes. -/
structure StructuredData (τ : Type := String) where
  typeUrl : τ
  value : Bytes := []
  deriving DecidableEq

/-- The payload of an event. -/
inductive EventData (τ : Type := String) where
  | binary (value : Bytes)
  | text (value : τ)
  | structured (value : StructuredData τ)
  deriving DecidableEq

def EventData.kind {τ : Type} : EventData τ → DataKind
  | binary _ => .binary
  | text _ => .text
  | structured _ => .structured

end CloudEvents
