import DemandPaging.Proofs.Bookkeeping

set_option autoImplicit false

namespace DemandPaging

variable [Platform]

-- The system gives places that start at a page, end inside the address space and overlap nothing that is in use, as long as
-- what is in use starts at pages.
def Host.Orderly (host : Host) : Prop :=
  ∀ used len base, (∀ s ∈ used, Page.size ∣ Span.base s) → host.place used len = some base →
    Page.size ∣ base ∧ base + Page.roundUp len < Word.limit ∧ ∀ s ∈ used, Span.overlaps ⟨base, len⟩ s = false

def Host.Spares (host : Host) (used : List Span) : Prop :=
  ∀ len base, host.place used len = some base → base + len < Word.limit ∧ ∀ s ∈ used, Span.overlaps ⟨base, len⟩ s = false

theorem Host.spares_of_orderly (host : Host) (used : List Span) (orderly : host.Orderly)
    (aligned : ∀ s ∈ used, Page.size ∣ Span.base s) : host.Spares used := by
  intro len base placed
  obtain ⟨-, inside, apart⟩ := orderly used len base aligned placed
  exact ⟨Nat.lt_of_le_of_lt (Nat.add_le_add_left (Page.le_roundUp len) base) inside, apart⟩

theorem Host.plain_orderly (missing : List String) : (Host.plain missing).Orderly := by
  intro used len base aligned placed
  have chosen := List.mem_filter.mp (List.min?_mem (show List.min? _ = some base from placed))
  obtain ⟨candidate, fits⟩ := chosen
  simp only [Bool.and_eq_true, decide_eq_true_eq, Bool.not_eq_true', List.any_eq_false] at fits
  refine ⟨?_, ?_, fun s member => Bool.eq_false_iff.mpr (fits.2 s member)⟩
  · rcases List.mem_cons.mp candidate with rfl | behind
    · exact Page.dvd_roundUp _
    · obtain ⟨s, member, rfl⟩ := List.mem_map.mp behind
      exact Nat.dvd_add (aligned s member) (Page.dvd_roundUp s.len)
  · have below : Host.highest < Word.limit := by decide
    omega

namespace Managed

def spans (o : Managed) : List Span := o.mapping.span :: (o.swap.map fun s => s.map.span).toList

theorem spans_becomes (o later : Managed) (becomes : o.Becomes later) : later.spans = o.spans := by
  rw [spans, spans, becomes.store, o.becomes_span later becomes]

end Managed

namespace Pager

def Aligned (p : Pager) : Prop := ∀ s ∈ p.spans, Page.size ∣ s.base

section

variable (p : Pager)

theorem mem_spans (s : Span) : s ∈ p.spans ↔ ∃ o ∈ p.objects, s ∈ o.spans := List.mem_flatMap

theorem aligned_start (settings : Settings) (started : start settings = .ok p) : p.Aligned := by
  intro s member
  obtain ⟨o, inObjects, -⟩ := (mem_spans p s).mp member
  rw [objects_start settings p started] at inObjects
  cases inObjects

theorem aligned_of_spans (q : Pager) (aligned : p.Aligned) (known : ∀ s ∈ q.spans, s ∈ p.spans) : q.Aligned :=
  fun s member => aligned s (known s member)

theorem aligned_lasts (q : Pager) (aligned : p.Aligned) (lasts : Lasts p q) : q.Aligned := by
  apply aligned_of_spans p q aligned
  intro s member
  obtain ⟨later, laterMember, inLater⟩ := (mem_spans q s).mp member
  obtain ⟨o, oMember, becomes⟩ := lasts.back later laterMember
  exact (mem_spans p s).mpr ⟨o, oMember, o.spans_becomes later becomes ▸ inLater⟩

theorem aligned_freed (o : Managed) (index : AddressMap ObjectId) (aligned : p.Aligned) : (p.freed o index).Aligned := by
  apply aligned_of_spans p _ aligned
  intro s member
  obtain ⟨x, xMember, inX⟩ := (mem_spans _ s).mp member
  exact (mem_spans p s).mpr ⟨x, (List.mem_filter.mp xMember).1, inX⟩

theorem placed_free (host : Host) (template : Template) (base : Nat) (catalogue : Catalogue p) (spares : host.Spares p.spans)
    (placed : host.place p.spans template.shape.size = some base) :
    base + template.shape.size < Word.limit ∧ ∀ e ∈ p.index.toList, ¬ e.Meets base template.shape.size := by
  obtain ⟨inside, apart⟩ := spares template.shape.size base placed
  have rounded := Page.le_roundUp template.shape.size
  refine ⟨inside, fun e listed meets => ?_⟩
  obtain ⟨o, member, rfl⟩ := (catalogue.indexed e).mp listed
  have separate := apart o.mapping.span ((mem_spans p _).mpr ⟨o, member, List.mem_cons_self⟩)
  have own := Page.le_roundUp o.mapping.len
  obtain ⟨first, second⟩ := meets
  simp only [Managed.entry, Entry.stop] at first second
  have hit : Span.overlaps ⟨base, template.shape.size⟩ o.mapping.span = true := by
    rw [Span.overlaps, Bool.and_eq_true, decide_eq_true_eq, decide_eq_true_eq]
    simp only [Mapping.span]
    omega
  rw [separate] at hit
  cases hit

variable (host : Host) (orderly : host.Orderly) (aligned : p.Aligned)

include orderly aligned

theorem aligned_allocated (id : ObjectId) (template : Template) (grant : Grant) (q : Pager)
    (allocated : Allocated p host id template grant q) : q.Aligned := by
  obtain ⟨base, swap, index, placed, sound, listed, affordable, opens⟩ := allocated
  obtain ⟨whole, -, -⟩ := orderly p.spans template.shape.size base aligned placed
  have used : ∀ s ∈ (⟨base, template.shape.size⟩ :: p.spans : List Span), Page.size ∣ s.base := by
    intro s member
    rcases List.mem_cons.mp member with rfl | member
    · exact whole
    · exact aligned s member
  intro s member
  obtain ⟨o, oMember, inO⟩ := (mem_spans _ s).mp member
  rcases List.mem_cons.mp oMember with rfl | old
  · rcases List.mem_cons.mp inO with rfl | store
    · exact whole
    · obtain ⟨t, given, rfl⟩ := Option.map_eq_some_iff.mp (Option.mem_toList.mp store)
      exact (orderly _ _ _ used (opens.placed t given)).1
  · exact aligned s ((mem_spans p s).mpr ⟨o, (List.mem_filter.mp old).1, inO⟩)

theorem aligned_served (q : Pager) (request : Request) (reply : Reply) (ledger : Ledger p)
    (served : Served host p request reply q) : q.Aligned := by
  cases served with
  | allocated id template grant q allocated => exact aligned_allocated p host orderly aligned id template grant q allocated
  | freed o index => exact aligned_freed p o index aligned
  | emptied o member =>
      exact aligned_lasts p _ aligned (lasts_revised p o _ (cleared o) ledger.ids member (cleared_becomes o) rfl)
  | refused => exact aligned

theorem allocate_placed (id : ObjectId) (template : Template) (catalogue : Catalogue p) (some : template.shape.size ≠ 0) :
    Ensures (allocate host id template) p (fun grant q => Allocated p host id template grant q)
      (fun halt q => q = p ∧ ∃ failure, halt = .failed failure ∧ Refusal template failure) := by
  apply ensures_mono _ _ _ _ _ _ (allocate_ensures p host id template catalogue.index)
  · exact fun _ _ allocated => allocated
  · intro halt q failed
    obtain ⟨rfl, refused | ⟨base, why, rfl, placed, taken⟩⟩ := failed
    · exact ⟨rfl, refused⟩
    · have spares := host.spares_of_orderly q.spans orderly aligned
      obtain ⟨inside, free⟩ := placed_free q host template base catalogue spares placed
      exact absurd ⟨some, inside, free⟩ taken

end

end Pager

end DemandPaging
