import DemandPaging.Failure
import DemandPaging.Page

set_option autoImplicit false

namespace DemandPaging

variable [Platform]

structure Span where
  base : Nat
  len : Nat
deriving DecidableEq, Repr

def Span.stop (s : Span) : Nat := s.base + s.len

-- A mapping takes whole pages.
def Span.overlaps (a b : Span) : Bool :=
  a.base < b.base + Page.roundUp b.len && b.base < a.base + Page.roundUp a.len

inductive SystemCall where
  | createFile (directory : String)
  | sizeFile (len : Nat)
  | watch (span : Span)
  | zero (span : Span)
  | wake (span : Span)
  | release (span : Span)
deriving DecidableEq, Repr

def SystemCall.text : SystemCall → String
  | .createFile _ => "create backing file"
  | .sizeFile _ => "size backing file"
  | .watch _ => "UFFDIO_REGISTER"
  | .zero _ => "UFFDIO_ZEROPAGE"
  | .wake _ => "UFFDIO_WAKE"
  | .release _ => "madvise"

-- How a wait ends while nothing rings.
inductive Waited where
  | timedOut
  | interrupted
  | failed (cause : SystemError)
deriving DecidableEq, Repr

structure Host where
  -- A base for `len` more bytes beside the spans that are in use, or nothing where there is no room.
  place : List Span → Nat → Option Nat
  refuse : SystemCall → Option SystemError
  -- Whether a watched span can be copied to, given zeros and woken.
  supports : Span → Bool
  -- Where a copy to a span is given up: after how many pages, and why.
  breakOff : Span → Option (Nat × SystemError)
  wait : Nat → Waited

namespace Host

-- The user part of a 48-bit address space.
def lowest : Nat := Page.roundUp 0x10000
def highest : Nat := 0x800000000000

def firstFit (used : List Span) (len : Nat) : Option Nat :=
  let bases := lowest :: used.map fun s => s.base + Page.roundUp s.len
  (bases.filter fun base =>
    decide (base + Page.roundUp len ≤ highest) && !used.any (Span.overlaps ⟨base, len⟩)).min?

-- A host with memory to spare, on which the directories named do not exist.
def plain (missing : List String) : Host where
  place := firstFit
  refuse
    | .createFile directory => if directory ∈ missing then some (.numbered SystemError.notPresent) else none
    | _ => none
  supports _ := true
  breakOff _ := none
  wait _ := .timedOut

def ask (host : Host) (call : SystemCall) : Except Failure Unit :=
  match host.refuse call with
  | none => .ok ()
  | some cause => .error (.resource call.text cause)

def Releases (host : Host) : Prop := ∀ span, host.refuse (.release span) = none

structure Yields (host : Host) : Prop where
  releases : host.Releases
  zeros (span : Span) : host.refuse (.zero span) = none
  wakes (span : Span) : host.refuse (.wake span) = none
  copies (span : Span) : host.breakOff span = none
  waits (millis : Nat) : host.wait millis = .timedOut

theorem plain_yields (missing : List String) : (plain missing).Yields :=
  ⟨fun _ => rfl, fun _ => rfl, fun _ => rfl, fun _ => rfl, fun _ => rfl⟩

end Host

end DemandPaging
