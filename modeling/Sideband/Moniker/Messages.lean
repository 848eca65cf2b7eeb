import Sideband.Foundation.Protobuf

/-!
# The messages of the moniker service

The messages of `data_moniker.proto` that the service's loops read and write, over a type `V` of
values (`google.protobuf.Any`). A field whose presence can be asked for is an `Option`; its accessor
gives the default value when it is not set.

A `WireFormat` is what the loops rely on in the library's encoding of a message: parsing inverts
serializing, and the message with no field set has no bytes. `sidebandWriteRequestFormat` and
`sidebandReadResponseFormat` are the proto3 encodings of the two messages of a sideband stream.
-/

namespace Sideband

open Foundation

/-! ### Messages -/

/-- `Moniker`: the name of an endpoint, and the instance that the endpoint is told. -/
structure Moniker where
  dataSource : Bytes
  dataInstance : ℤ
  deriving DecidableEq, Repr

/-- `MonikerList`, the first message of a stream: the endpoints to read from and to write to, and
who writes first. -/
structure MonikerList where
  isInitialWrite : Bool := false
  readMonikers : List Moniker := []
  writeMonikers : List Moniker := []
  deriving DecidableEq, Repr

/-- `SidebandWriteRequest`, from a sideband client to the service. -/
structure SidebandWriteRequest (V : Type) where
  cancel : Bool := false
  values? : Option (List V) := none
  deriving DecidableEq, Repr

/-- `SidebandReadResponse`. The service never sets `cancel` in a response. -/
structure SidebandReadResponse (V : Type) where
  cancel : Bool := false
  values? : Option (List V) := none
  deriving DecidableEq, Repr

/-- The `oneof write_data` of a `MonikerWriteRequest`: one of the two, or neither. -/
inductive WriteData (V : Type)
  | monikers (monikers : MonikerList)
  | data (values : List V)
  deriving DecidableEq, Repr

/-- `MonikerWriteRequest`, from a gRPC client to the service: the moniker list, or data. -/
structure MonikerWriteRequest (V : Type) where
  writeData : Option (WriteData V) := none
  deriving DecidableEq, Repr

/-- `MonikerReadResult`, from the service to a gRPC client. -/
structure MonikerReadResult (V : Type) where
  data? : Option (List V) := none
  deriving DecidableEq, Repr

variable {V : Type}

/-- `values().values()`: of a submessage that is not there, the default one without values. -/
def SidebandWriteRequest.values (request : SidebandWriteRequest V) : List V :=
  request.values?.getD []

/-- `values().values()`: of a submessage that is not there, the default one without values. -/
def SidebandReadResponse.values (response : SidebandReadResponse V) : List V :=
  response.values?.getD []

namespace MonikerWriteRequest

/-- `monikers()`: the default, an empty list, if the message carries something else. -/
def monikers (request : MonikerWriteRequest V) : MonikerList :=
  match request.writeData with
  | some (.monikers monikers) => monikers
  | _ => {}

/-- `data().values()`: the default, no values, if the message carries something else. -/
def values (request : MonikerWriteRequest V) : List V :=
  match request.writeData with
  | some (.data values) => values
  | _ => []

/-- The request after its values have been written through `const_cast`. -/
def setValues (request : MonikerWriteRequest V) (values : List V) : MonikerWriteRequest V :=
  match request.writeData with
  | some (.data _) => ⟨some (.data values)⟩
  | _ => request

end MonikerWriteRequest

/-- `data().values()`. -/
def MonikerReadResult.values (result : MonikerReadResult V) : List V := result.data?.getD []

/-! ### Encodings -/

/-- What the library promises about the encoding of a message type, `empty` being the message
with no field set. Which other bytes are accepted is left out, and so is the limit of 2 GiB:
`WireFormat.Message` has the messages below it. -/
structure WireFormat {M : Type} (empty : M) where
  serialize : M → Bytes
  parse : Bytes → Option M
  parse_serialize : ∀ m, parse (serialize m) = some m
  serialize_empty : serialize empty = []

/-- Only the message with no field set serializes to no bytes. -/
theorem WireFormat.serialize_ne_nil {M : Type} {empty m : M} (format : WireFormat empty)
    (h : m ≠ empty) : format.serialize m ≠ [] := by
  intro hnil
  have hparse := format.parse_serialize m
  rw [hnil, ← format.serialize_empty, format.parse_serialize] at hparse
  exact h (Option.some.inj hparse).symm

section Proto3

open Protobuf

/-- `google.protobuf.Any`, the type of a value. The service hands it on and never looks into it. -/
structure Any where
  typeUrl : Bytes := []
  value : Bytes := []
  deriving DecidableEq, Repr, Inhabited

/-- A string or bytes field is left out when it is empty. -/
private def nonempty (bytes : Bytes) : Option Bytes := if bytes = [] then none else some bytes

private theorem getD_nonempty (bytes : Bytes) : (nonempty bytes).getD [] = bytes := by
  rw [nonempty]
  split_ifs with h
  · exact h.symm
  · rfl

def Any.serialize (v : Any) : Bytes :=
  optional 0x0A (nonempty v.typeUrl) ++ optional 0x12 (nonempty v.value)

def Any.parse (bytes : Bytes) : Option Any := do
  let (typeUrl, bytes) ← takeOptional 0x0A bytes
  let (value, bytes) ← takeOptional 0x12 bytes
  if bytes = [] then return ⟨typeUrl.getD [], value.getD []⟩ else none

theorem Any.parse_serialize (v : Any) : Any.parse v.serialize = some v := by
  have htypeUrl := takeOptional_append (head?_optional_ne (by decide : (0x12 : UInt8) ≠ 0x0A)
    (nonempty v.value)) (nonempty v.typeUrl)
  rw [Any.parse, Any.serialize, htypeUrl]
  change (takeOptional 0x12 (optional 0x12 (nonempty v.value))).bind _ = _
  rw [takeOptional_optional]
  change some (⟨(nonempty v.typeUrl).getD [], (nonempty v.value).getD []⟩ : Any) = some v
  rw [getD_nonempty, getD_nonempty]

/-- A `MonikerValues`. -/
def serializeValues (values : List Any) : Bytes := repeated 0x0A (values.map Any.serialize)

def parseValues (bytes : Bytes) : Option (List Any) :=
  (takeRepeated 0x0A bytes.length bytes).bind (List.mapM Any.parse)

theorem parseValues_serializeValues (values : List Any) :
    parseValues (serializeValues values) = some values := by
  have hmap : List.mapM Any.parse (values.map Any.serialize) = some values := by
    induction values with
    | nil => rfl
    | cons v values ih =>
      rw [List.map_cons, List.mapM_cons, Any.parse_serialize, ih]
      rfl
  rw [parseValues, serializeValues, takeRepeated_repeated, Option.bind_some, hmap]

/-- The two fields of a sideband message, `bool cancel = 1` and `MonikerValues values = 2`. -/
private def serializeSideband (cancel : Bool) (values? : Option (List Any)) : Bytes :=
  (if cancel then [0x08, 0x01] else []) ++ optional 0x12 (values?.map serializeValues)

private def parseSideband (bytes : Bytes) : Option (Bool × Option (List Any)) := do
  let cancel := bytes.head? = some 0x08
  let (payload, bytes) ← takeOptional 0x12 (if cancel then bytes.drop 2 else bytes)
  let values? ← payload.mapM parseValues
  if bytes = [] then return (cancel, values?) else none

private theorem parseSideband_serializeSideband (cancel : Bool) (values? : Option (List Any)) :
    parseSideband (serializeSideband cancel values?) = some (cancel, values?) := by
  obtain ⟨payload, hpayload⟩ : ∃ payload, values?.map serializeValues = payload := ⟨_, rfl⟩
  have hvalues : payload.mapM parseValues = some values? := by
    rw [← hpayload]
    rcases values? with - | values
    · rfl
    · change (parseValues (serializeValues values)).map some = _
      rw [parseValues_serializeValues]
      rfl
  have htake (cancel : Bool) :
      ((takeOptional 0x12 (optional 0x12 payload)).bind fun (payload, bytes) =>
        (payload.mapM parseValues).bind fun values? =>
          if bytes = [] then some (cancel, values?) else none) = some (cancel, values?) := by
    rw [takeOptional_optional, Option.bind_some]
    dsimp only
    rw [hvalues, Option.bind_some, if_pos rfl]
  rw [serializeSideband, hpayload]
  rcases cancel with - | -
  · have hhead := head?_optional_ne (by decide : (0x12 : UInt8) ≠ 0x08) payload
    rw [if_neg Bool.false_ne_true, List.nil_append]
    simp only [parseSideband, hhead, decide_false, if_false]
    exact htake false
  · exact htake true

/-- The encoding of `SidebandWriteRequest`, in the order of the field numbers. The parser accepts
what is encoded in this order, and no unknown fields. -/
def sidebandWriteRequestFormat : WireFormat ({} : SidebandWriteRequest Any) where
  serialize m := serializeSideband m.cancel m.values?
  parse bytes := (parseSideband bytes).map fun (cancel, values?) => ⟨cancel, values?⟩
  parse_serialize m := by rw [parseSideband_serializeSideband, Option.map_some]
  serialize_empty := rfl

/-- The encoding of `SidebandReadResponse`. -/
def sidebandReadResponseFormat : WireFormat ({} : SidebandReadResponse Any) where
  serialize m := serializeSideband m.cancel m.values?
  parse bytes := (parseSideband bytes).map fun (cancel, values?) => ⟨cancel, values?⟩
  parse_serialize m := by rw [parseSideband_serializeSideband, Option.map_some]
  serialize_empty := rfl

end Proto3

end Sideband
