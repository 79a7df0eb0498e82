import Mathlib.Algebra.Order.BigOperators.Group.List
import DemandPaging.Proofs.Chronicle
import DemandPaging.Proofs.Retiring

set_option autoImplicit false

namespace DemandPaging

variable [Platform]

namespace Pager

-- What a fault at a chunk without a copy does while there is room below the high mark. Nothing is evicted, and the filler is
-- called even if the chunk is there.
structure Filled (p q : Pager) (id : ObjectId) (template : Template) (i : Nat) : Prop where
  fills : q.counters.fills = p.counters.fills + 1
  others : q.counters.restores = p.counters.restores ∧ q.counters.reclaims = p.counters.reclaims
  resident : q.Resident id i
  comes : ¬ p.Resident id i → q.journal = .installed id i :: .filling (template.call id i) :: p.journal ∧
    ∃ r, q.queue.toList = p.queue.toList ++ [r]
  stays : p.Resident id i → q.journal = .filling (template.call id i) :: p.journal ∧ q.queue.toList = p.queue.toList

theorem filled_of_resolved (p q : Pager) (address : Nat) (o : Managed) (k : Nat) (ledger : Ledger p) (member : o ∈ p.objects)
    (inside : k < o.shape.bodyReserved) (place : address = o.mapping.base + (o.shape.headerPadded + k))
    (room : p.resident + (o.shape.piece (k / o.shape.chunkLen)).fillLen ≤ p.settings.high)
    (unsaved : o.isSaved (k / o.shape.chunkLen) = false) (resolved : Resolved p address q) :
    Filled p q o.id o.template (k / o.shape.chunkLen) := by
  have chunk := o.shape.chunk_of_offset_lt k inside
  cases resolved with
  | header x xMember low high =>
      exact (header_not_body p address ledger.toCatalogue x o k xMember low high member inside place).elim
  | body x now j calls bytes roomy supplied q xMember xPlace xInside made becomes nowMember sourced there installed =>
      obtain ⟨rfl, rfl⟩ := place_unique p address ledger.toCatalogue o x k j member xMember inside xInside place xPlace
      have noticed : roomy = p.noticed := by
        cases made with
        | enough => rfl
        | passed q above => exact absurd room (Nat.not_le.mpr above)
      subst noticed
      obtain rfl : now = o := same_of_id p now o ledger.ids nowMember member becomes.id
      have after := installed_resident supplied q { now with calls } _ bytes chunk installed
      cases sourced with
      | restored s staging store saved =>
          rw [Managed.isSaved, store] at unsaved
          cases saved.symm.trans unsaved
      | filled filler byte old staging absent given filled size =>
          cases installed with
          | fresh queue wf records missing =>
              exact ⟨rfl, ⟨rfl, rfl⟩, after, fun _ => ⟨rfl, _, records⟩, fun resident => absurd resident missing⟩
          | present queue wf records resident =>
              exact ⟨rfl, ⟨rfl, rfl⟩, after, fun missing => absurd resident missing, fun _ => ⟨rfl, records⟩⟩

end Pager

end DemandPaging

namespace DemandPaging

def Template.onePage : Template where
  shape := {
    headerSize := 0, elementCount := 1, stride := Page.size, perChunk := 1
    stride_pos := Page.size_pos
    perChunk_pos := Nat.one_pos
    chunk_pages := Page.one_whole
    chunk_word := Page.one_word
    size_le := Page.one_fits }
  readOnly := true
  filler := some fun _ _ => .filled fun _ => some 1
  client := none

def Settings.twoPages : Settings where
  high := 2 * Page.size
  low := Page.size
  queueCapacity := 2
  stagingPages := 1
  waitMillis := 200
  maxInterrupts := 3
  swapDirectory := "swap"

theorem Template.one_page_able (halt : Halt) : ¬ Pager.Justified Page.size .onePage halt := by
  intro justified
  cases justified with
  | unfilled start stop code fails =>
      obtain ⟨filler, calls, given, fails⟩ := fails
      cases given
      rcases fails with impossible | ⟨impossible, -⟩ <;> cases impossible
  | full i inside large =>
      have only : i = 0 := Nat.lt_one_iff.mp inside
      subst only
      exact absurd large (by decide)

namespace Pager

-- There is one object, of one page. Twice its bytes are below the high mark.
structure Lone (p : Pager) : Prop extends Keeps .twoPages p where
  storeless : p.Storeless
  alone : ∃ o, p.objects = [o] ∧ o.template = .onePage ∧ o.entry = ⟨Host.lowest, Page.size, ⟨1⟩⟩

section

variable (p : Pager) (lone : p.Lone)

include lone

theorem lone_of_live (r : Residency) (isLive : r ∈ p.live) : r.key = (⟨1⟩, 0) ∧ r.len = Page.size := by
  obtain ⟨o, alone, template, entry⟩ := lone.alone
  obtain ⟨x, xMember, of⟩ := lone.ledger.owned r isLive
  rw [alone, List.mem_singleton] at xMember
  subst xMember
  have chunk := of.chunk
  have len := of.len
  rw [Managed.shape, template] at chunk len
  have only : r.chunk = 0 := Nat.lt_one_iff.mp chunk
  rw [only] at len
  exact ⟨Prod.ext (of.owner.trans (congrArg Entry.owner entry)) only, len⟩

theorem lone_live : p.live.length ≤ 1 := by
  have same := List.eq_replicate_of_mem fun k member => by
    obtain ⟨r, isLive, rfl⟩ := List.mem_map.mp member
    exact (lone_of_live p lone r isLive).1
  have distinct := lone.ledger.distinct
  rw [same, List.nodup_replicate, List.length_map] at distinct
  exact distinct

theorem lone_room : p.resident + Page.size ≤ p.settings.high := by
  have bytes : ∀ n ∈ p.live.map Residency.len, n ≤ Page.size := by
    intro n member
    obtain ⟨r, isLive, rfl⟩ := List.mem_map.mp member
    exact Nat.le_of_eq (lone_of_live p lone r isLive).2
  have sum := List.sum_le_card_nsmul _ _ bytes
  rw [List.length_map, sum_live, lone.ledger.total, nsmul_eq_mul, Nat.cast_id] at sum
  have one := Nat.mul_le_mul_right Page.size (lone_live p lone)
  have high : p.settings.high = 2 * Page.size := lone.settings ▸ rfl
  omega

end

theorem lone_touched (w : Worker) (serving : w.Serving) (lone : w.pager.Lone) :
    ∃ q, w.fault (Host.plain []) Host.lowest = { w with pager := q, interrupts := 0 } ∧
      q.Lone ∧ Filled w.pager q ⟨1⟩ .onePage 0 := by
  obtain ⟨o, alone, template, entry⟩ := lone.alone
  have member : o ∈ w.pager.objects := alone ▸ List.mem_singleton_self o
  have shape : o.shape = Template.onePage.shape := congrArg Template.shape template
  have place : Host.lowest / Page.size * Page.size = o.mapping.base + (o.shape.headerPadded + 0) := by
    rw [shape, show o.mapping.base = Host.lowest from congrArg Entry.base entry]
    decide
  have inside : 0 < o.shape.bodyReserved := shape ▸ by decide
  have fill : (o.shape.piece (0 / o.shape.chunkLen)).fillLen = Page.size := shape ▸ by decide
  have room := lone_room w.pager lone
  have fits : w.pager.resident + (o.shape.piece (0 / o.shape.chunkLen)).fillLen < Word.limit := by
    rw [fill]
    refine Nat.lt_of_le_of_lt room ?_
    rw [lone.settings]
    decide
  have goesOn := w.fault_serves (Host.plain []) (Host.plain_yields []) Host.lowest serving
    lone.ledger o 0 member inside place fits
    (by rw [template]; exact Option.some_ne_none _) (by rw [template, lone.settings]; exact Template.one_page_able)
  obtain ⟨q, run, ledger, resolved⟩ := w.resolved_of_serving (Host.plain []) Host.lowest lone.ledger goesOn
  have lasts := resolved_lasts w.pager _ q lone.ledger resolved
  obtain ⟨x, only⟩ : ∃ x, q.objects = [x] := by
    have number := (same_number_resolved w.pager q _ resolved).2
    rw [alone] at number
    exact List.length_eq_one_iff.mp number
  obtain ⟨y, yMember, becomes⟩ := lasts.back x (only ▸ List.mem_singleton_self x)
  rw [alone, List.mem_singleton] at yMember
  subst yMember
  have unsaved : y.isSaved (0 / y.shape.chunkLen) = false := by
    rw [Managed.isSaved, lone.storeless y member (template ▸ rfl), Option.any_none]
  have filled := filled_of_resolved w.pager q _ y 0 lone.ledger member inside place (fill ▸ room) unsaved resolved
  rw [template, Nat.zero_div, show y.id = ⟨1⟩ from congrArg Entry.owner entry] at filled
  exact ⟨q, w.fault_answered _ _ q run,
    { ledger, settings := (settings_resolved w.pager q _ resolved).trans lone.settings
      storeless := storeless_lasts w.pager q lasts lone.storeless
      alone := ⟨x, only, becomes.template.trans template, (y.becomes_entry x becomes).trans entry⟩ }, filled⟩

theorem lone_emptied (p : Pager) (lone : p.Lone) (o : Managed) (alone : p.objects = [o]) : (p.emptied o).Lone := by
  have member : o ∈ p.objects := alone ▸ List.mem_singleton_self o
  obtain ⟨x, same, template, entry⟩ := lone.alone
  cases List.singleton_inj.mp (alone.symm.trans same)
  have lasts := lasts_revised p o (p.emptied o) (cleared o) lone.ledger.ids member (cleared_becomes o) rfl
  refine {
    ledger := ledger_emptied p o lone.ledger member, settings := lone.settings
    storeless := storeless_lasts p _ lasts lone.storeless, alone := ⟨cleared o, ?_, template, entry⟩ }
  show revised p.objects (cleared o) = [cleared o]
  rw [alone, revised, List.map_singleton]
  exact congrArg (fun x => [x]) (if_pos rfl)

end Pager

namespace Worker

open Pager

def allotting : List Move := [.send (.allocate ⟨1⟩ .onePage), .advance, .advance, .advance]

def allotted : Worker := (unused .twoPages).makes (Host.plain []) allotting

theorem serving_allotted : allotted.Serving := by decide +kernel

theorem lived_allotted : ∃ past, Lived .twoPages past allotted :=
  ⟨_, lived_of_moves _ _ (Host.plain_yields []).releases allotting [] _ (.started _ rfl) (by decide +kernel) (by decide +kernel)⟩

theorem reachable_allotted : Reachable .twoPages allotted := by
  obtain ⟨past, lived⟩ := lived_allotted
  exact reachable_of_lived .twoPages past allotted lived

theorem lone_allotted : allotted.pager.Lone := by
  have templates : allotted.pager.objects.map Managed.template = [.onePage] := by with_unfolding_all rfl
  obtain ⟨o, alone, template⟩ := List.map_eq_singleton_iff.mp templates
  have entries : allotted.pager.objects.map Managed.entry = [⟨Host.lowest, Page.size, ⟨1⟩⟩] := by decide +kernel
  rw [alone, List.map_singleton] at entries
  exact { keeps_of_reachable _ _ reachable_allotted serving_allotted with
    storeless := storeless_of_reachable _ _ reachable_allotted serving_allotted
    alone := ⟨o, alone, template, List.singleton_inj.mp entries⟩ }

end Worker

end DemandPaging
