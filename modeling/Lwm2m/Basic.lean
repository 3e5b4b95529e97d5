/-
# Faults, response codes and byte strings

What the C code has in common across its files.  Memory is modelled by Lean
values, so the accesses that the C standard leaves undefined are made explicit:
a function that can perform one returns `Except Fault`.  Allocation is taken to
succeed unless a model says otherwise.
-/

import Mathlib.Data.Nat.Notation

namespace Lwm2m

/-- The undefined behaviour that a modelled function can run into. -/
inductive Fault
  /-- A read at an index outside its buffer. -/
  | outOfBoundsRead
  /-- A write at an index outside its array. -/
  | outOfBoundsWrite
  /-- A read of a union through a member other than the one last written. -/
  | wrongUnionMember
  /-- A dereference of a null pointer. -/
  | nullDereference
  /-- A dereference of a pointer to freed memory. -/
  | useAfterFree
  /-- An integer division by zero. -/
  | divisionByZero
  /-- A signed operation whose result does not fit its type. -/
  | signedOverflow
  deriving DecidableEq, Repr

/-- A byte. -/
abbrev Byte := UInt8

/-- The bytes of a C string before its terminating NUL. -/
abbrev CString := List Byte

/-- A response code `coap_status_t`, one byte. -/
abbrev Code := UInt8

namespace Code

def noError : Code := 0
def coapIgnore : Code := 1
def coapRetransmission : Code := 2
def coap201Created : Code := 0x41
def coap202Deleted : Code := 0x42
def coap204Changed : Code := 0x44
def coap205Content : Code := 0x45
def coap231Continue : Code := 0x5F
def coap400BadRequest : Code := 0x80
def coap401Unauthorized : Code := 0x81
def coap402BadOption : Code := 0x82
def coap404NotFound : Code := 0x84
def coap405MethodNotAllowed : Code := 0x85
def coap406NotAcceptable : Code := 0x86
def coap408ReqEntityIncomplete : Code := 0x88
def coap412PreconditionFailed : Code := 0x8C
def coap413EntityTooLarge : Code := 0x8D
def coap500InternalServerError : Code := 0xA0
def coap501NotImplemented : Code := 0xA1
def coap503ServiceUnavailable : Code := 0xA3
def proxyingNotSupported : Code := 0xA5

end Code

end Lwm2m
