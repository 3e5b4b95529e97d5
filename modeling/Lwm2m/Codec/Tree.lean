/-
# Resource trees

`lwm2m_data_t` of `include/liblwm2m.h`, the tree that the object layer hands to the content formats
and gets from them: a leaf holds a value, a container the array of `asChildren`.
-/

import Lwm2m.Core.Context

namespace Lwm2m.Codec

open Core

/-- The value of a node without children, by its type. -/
inductive Leaf
  | undefined
  | string (value : List Byte)
  | opaqueBytes (value : List Byte)
  | integer (value : Int64)
  | unsignedInteger (value : UInt64)
  | float (value : Double)
  | boolean (value : Bool)
  | objectLink (objectId objectInstanceId : UInt16)
  | coreLink (value : List Byte)
  deriving DecidableEq, Repr

/-- The types of a node with children. -/
inductive ContainerType
  | object
  | objectInstance
  | multipleResource
  deriving DecidableEq, Repr

/-- `lwm2m_data_t`. -/
inductive Tree
  | leaf (id : UInt16) (value : Leaf)
  | container (id : UInt16) (type : ContainerType) (children : List Tree)
  deriving Repr

/-- Induction over a list of trees and the lists below it. -/
theorem forest_induction {P : List Tree → Prop} (nil : P [])
    (leaf : ∀ id value next, P next → P (.leaf id value :: next))
    (container : ∀ id type children next, P children → P next →
      P (.container id type children :: next)) : ∀ l, P l
  | [] => nil
  | .leaf id value :: next => leaf id value next (forest_induction nil leaf container next)
  | .container id type children :: next =>
    container id type children next (forest_induction nil leaf container children)
      (forest_induction nil leaf container next)

end Lwm2m.Codec
