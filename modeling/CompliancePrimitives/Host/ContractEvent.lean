import CompliancePrimitives.Foundation.Encoding
import CompliancePrimitives.Host.Env

/-!
# What the host publishes for a contract

A contract publishes an event as values of the host: a list of topics and one data value. What
`#[contractevent]` makes of a structure is `contractEvent`: the first topic is the name of the
structure in snake case, the fields marked `#[topic]` follow, and the other fields are the entries
of a map, keyed by their names in order.

Outside of the chain these values travel as XDR. `Val.xdr` is the encoding of the kinds of values
the events of these contracts have, and of vectors and maps of them. Numbers are naturals and
integers here, and an encoding holds what its width has room for.
-/

namespace Soroban

open Encoding

/-- `ScAddress`: an account, by its ed25519 key, or a contract, by its hash. -/
inductive ScAddress where
  | account (key : Bytes32)
  | contract (hash : Bytes32)
  deriving DecidableEq

/-- The key of a map entry: the field name of a structure, or a text. -/
inductive MapKey where
  | symbol (name : Symbol)
  | string (text : Bytes)
  deriving DecidableEq

/-- `ScVal`, as far as events go. -/
inductive Val where
  | void
  | bool (value : Bool)
  | u32 (value : ℕ)
  | u64 (value : ℕ)
  | i128 (value : ℤ)
  | bytes (value : Bytes)
  | symbol (value : Symbol)
  | string (value : Bytes)
  | address (value : ScAddress)
  | vec (items : List Val)
  | map (entries : List (MapKey × Val))

/-! ### XDR -/

/-- A number of four bytes. -/
def xdrU32 (n : ℕ) : Bytes := bigEndian 4 n

/-- A number of eight bytes. -/
def xdrU64 (n : ℕ) : Bytes := bigEndian 8 n

/-- `Int128Parts`: the signed upper half, and the lower half. -/
def xdrI128 (z : ℤ) : Bytes :=
  xdrU64 (z / 2 ^ 64 % 2 ^ 64).toNat ++ xdrU64 (z % 2 ^ 64).toNat

/-- Bytes of variable length: their number, and zeros up to a multiple of four. -/
def xdrOpaque (bytes : Bytes) : Bytes :=
  xdrU32 bytes.length ++ (bytes ++ List.replicate ((4 - bytes.length % 4) % 4) 0)

/-- The arms of `ScAddress`; an account's key has a type of its own. -/
def ScAddress.xdr : ScAddress → Bytes
  | .account key => xdrU32 0 ++ (xdrU32 0 ++ key.toList)
  | .contract hash => xdrU32 1 ++ hash.toList

/-- A key is a symbol or a string value. -/
def MapKey.xdr : MapKey → Bytes
  | .symbol name => xdrU32 15 ++ xdrOpaque (utf8 name)
  | .string text => xdrU32 14 ++ xdrOpaque text

mutual

/-- A value: the discriminant of its kind, and its content. Vectors and maps are optional in XDR,
and are always there. -/
def Val.xdr : Val → Bytes
  | .void => xdrU32 1
  | .bool value => xdrU32 0 ++ xdrU32 (if value then 1 else 0)
  | .u32 value => xdrU32 3 ++ xdrU32 value
  | .u64 value => xdrU32 5 ++ xdrU64 value
  | .i128 value => xdrU32 10 ++ xdrI128 value
  | .bytes value => xdrU32 13 ++ xdrOpaque value
  | .symbol value => xdrU32 15 ++ xdrOpaque (utf8 value)
  | .string value => xdrU32 14 ++ xdrOpaque value
  | .address value => xdrU32 18 ++ value.xdr
  | .vec items => xdrU32 16 ++ (xdrU32 1 ++ (xdrU32 items.length ++ Val.xdrItems items))
  | .map entries => xdrU32 17 ++ (xdrU32 1 ++ (xdrU32 entries.length ++ Val.xdrEntries entries))

/-- The items of a vector. -/
def Val.xdrItems : List Val → Bytes
  | [] => []
  | x :: items => x.xdr ++ Val.xdrItems items

/-- The entries of a map. -/
def Val.xdrEntries : List (MapKey × Val) → Bytes
  | [] => []
  | (k, x) :: entries => k.xdr ++ (x.xdr ++ Val.xdrEntries entries)

end

/-! ### Events -/

/-- A published event. -/
structure Published where
  topics : List Val
  data : Val

/-- What `#[contractevent]` makes of a structure: its name, its `#[topic]` fields, and its other
fields. -/
def contractEvent (name : Symbol) (topics : List Val) (fields : List (Symbol × Val)) :
    Published where
  topics := .symbol name :: topics
  data := .map (fields.map fun field ↦ (.symbol field.1, field.2))

end Soroban
