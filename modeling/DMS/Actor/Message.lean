import DMS.Did.Identity

/-! # Messages of the actor system

The parts of `Handle` and `Envelope` of `actor/interface.go` that the rate limiter and
the security context read. The identity of an actor is its encoded public key.
-/

namespace DMS.Actor

open Did

structure Address where
  hostID : GoString
  inboxAddress : GoString
deriving DecidableEq, Repr

def Address.empty (a : Address) : Bool := decide (a.hostID = []) && decide (a.inboxAddress = [])

structure Handle where
  id : GoString
  did : DID
  address : Address
deriving DecidableEq, Repr

def Handle.empty (h : Handle) : Bool := decide (h.id = []) && h.did.empty && h.address.empty

structure EnvelopeOptions where
  topic : GoString
deriving DecidableEq, Repr

/-- `receiver` and `sender` are the fields `To` and `From`. -/
structure Envelope where
  receiver : Handle
  behavior : GoString
  sender : Handle
  options : EnvelopeOptions
  capability : GoString
deriving DecidableEq, Repr

namespace Envelope

def isBroadcast (msg : Envelope) : Bool := msg.receiver.empty && !decide (msg.options.topic = [])

def isPublicBehavior (msg : Envelope) : Bool := (ascii "/public/").isPrefixOf msg.behavior

end Envelope

end DMS.Actor
