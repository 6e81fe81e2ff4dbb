import Mathlib.Data.List.Basic
import Mathlib.Logic.Function.Basic

/-!
# JSON codecs

A codec writes a value as JSON and reads it back. `Leaf` is a codec that
loses nothing and never writes `null`; optional values are built over it with
`null` for the missing one.

* `decode_encode_option`: one layer of `Option` is read back.
* `decode_encode_option_option`: of two layers, `some none` is read as `none`
  (`decode_encode_option_option_iff`).
* `field`: the field of an object, which may be missing.
-/
namespace Core

inductive Json where
  | null
  | bool (b : Bool)
  | number (n : Int)
  | string (s : String)
  | array (items : List Json)
  | object (fields : List (String × Json))

structure Codec (α : Type) where
  encode : α → Json
  decode : Json → Option α

/-- What is written is read back, and it is not `null`. -/
structure Leaf (α : Type) extends Codec α where
  decode_encode : ∀ a, decode (encode a) = some a
  encode_ne_null : ∀ a, encode a ≠ .null

namespace Codec

variable {α β : Type}

/-- `Option`: the missing value is `null`. -/
def option (c : Codec α) : Codec (Option α) where
  encode
    | none => .null
    | some a => c.encode a
  decode
    | .null => some none
    | j => (c.decode j).map some

theorem option_decode {c : Codec α} {j : Json} (h : j ≠ .null) :
    c.option.decode j = (c.decode j).map some := by
  cases j with
  | null => exact absurd rfl h
  | _ => rfl

/-- Text, for a type whose values are told apart by it. -/
noncomputable def text (print : α → String) : Codec α where
  encode a := .string (print a)
  decode
    | .string s => Function.partialInv print s
    | _ => none

end Codec

namespace Leaf

variable {α : Type}

theorem decode_encode_option (c : Leaf α) (o : Option α) :
    c.option.decode (c.option.encode o) = some o := by
  cases o with
  | none => rfl
  | some a =>
    have h : c.option.decode (c.encode a) = (c.decode (c.encode a)).map some :=
      Codec.option_decode (c.encode_ne_null a)
    exact h.trans (by rw [c.decode_encode]; rfl)

/-- Both ways of having no value are written as `null`. -/
theorem decode_encode_option_option (c : Leaf α) (o : Option (Option α)) :
    c.option.option.decode (c.option.option.encode o) = some (o.join.map some) := by
  match o with
  | none => rfl
  | some none => rfl
  | some (some a) =>
    have h : c.option.option.decode (c.encode a) = (c.option.decode (c.encode a)).map some :=
      Codec.option_decode (c.encode_ne_null a)
    exact h.trans (by rw [show c.option.decode (c.encode a) = some (some a) from
      c.decode_encode_option (some a)]; rfl)

def string : Leaf String where
  encode := .string
  decode
    | .string s => some s
    | _ => none
  decode_encode _ := rfl
  encode_ne_null _ := nofun

def bool : Leaf Bool where
  encode := .bool
  decode
    | .bool b => some b
    | _ => none
  decode_encode _ := rfl
  encode_ne_null _ := nofun

noncomputable def text (print : α → String) (h : Function.Injective print) : Leaf α where
  toCodec := .text print
  decode_encode a := Function.partialInv_left h a
  encode_ne_null _ := nofun

end Leaf

/-- Two layers of `Option` are kept unless the inner one is empty. -/
theorem map_join_eq_iff {α : Type} {o : Option (Option α)} :
    o.join.map some = o ↔ o ≠ some none := by
  match o with
  | none => simp
  | some none => simp
  | some (some a) => simp

namespace Json

/-- The fields of an object. -/
def fields? : Json → Option (List (String × Json))
  | .object fields => some fields
  | _ => none

/-- A field that may be missing; twice the same name is an error. -/
def field {α : Type} (fields : List (String × Json)) (name : String) (c : Codec (Option α)) :
    Option (Option α) :=
  match fields.filter (·.1 == name) with
  | [] => some none
  | [entry] => c.decode entry.2
  | _ => none

end Json

end Core
