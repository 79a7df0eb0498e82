import DemandPaging.Memory.Host
import DemandPaging.Memory.Sparse

set_option autoImplicit false

namespace DemandPaging

variable [Platform]

structure Mapping where
  base : Nat
  len : Nat
  shared : Bool
  bytes : SparseBytes
deriving DecidableEq

namespace Mapping

def span (m : Mapping) : Span := ⟨m.base, m.len⟩

def anonymous (host : Host) (used : List Span) (len : Nat) : Except Failure Mapping :=
  if len = 0 then
    .error .emptyObject
  else
    match host.place used len with
    | none => .error (.resource "mmap" (.numbered SystemError.outOfMemory))
    | some base => .ok { base, len, shared := false, bytes := .empty }

def ofFile (host : Host) (used : List Span) (len : Nat) : Except Failure Mapping :=
  if len = 0 then
    .error (.invariant .emptyFile)
  else
    match host.place used len with
    | none => .error (.resource "mmap backing store" (.numbered SystemError.outOfMemory))
    | some base => .ok { base, len, shared := true, bytes := .empty }

def check (m : Mapping) (offset len : Nat) : Except Failure Unit :=
  if offset + len ≤ m.len then .ok () else .error (.invariant (.mappingRange offset len m.len))

def read (m : Mapping) (offset len : Nat) : Except Failure Bytes := do
  m.check offset len
  pure (m.bytes.slice offset len)

def write (m : Mapping) (offset : Nat) (bytes : Bytes) : Except Failure Mapping := do
  m.check offset bytes.size
  pure { m with bytes := m.bytes.write offset bytes }

-- Gives the pages of a range back to the system; the mapping itself stays.
def release (host : Host) (m : Mapping) (offset len : Nat) : Except Failure Mapping := do
  m.check offset len
  if len = 0 then
    pure m
  else if offset % Page.size ≠ 0 then
    .error (.resource (SystemCall.release ⟨m.base + offset, len⟩).text (.numbered SystemError.invalidArgument))
  else
    host.ask (.release ⟨m.base + offset, len⟩)
    pure (if m.shared then m else { m with bytes := m.bytes.drop (offset / Page.size) (Page.count len) })

inductive Copied where
  | whole
  -- A page was there already; those before it were installed.
  | present
  | refused (cause : SystemError)

def install (host : Host) (m : Mapping) (offset : Nat) (bytes : Bytes) : Mapping × Copied :=
  let count := Page.count bytes.size
  let (pages, ending) := match host.breakOff ⟨m.base + offset, bytes.size⟩ with
    | some (pages, cause) => if pages < count then (pages, .refused cause) else (count, .whole)
    | none => (count, .whole)
  let (installed, complete) := m.bytes.install (offset / Page.size) bytes pages
  ({ m with bytes := installed }, if complete then ending else .present)

def isPresent (m : Mapping) (offset : Nat) : Bool := m.bytes.isPresent (offset / Page.size)

def holds (m : Mapping) (address : Nat) : Bool := decide (m.base ≤ address) && decide (address < m.base + Page.roundUp m.len)

end Mapping

end DemandPaging
