import DemandPaging.Proofs.Placement
import DemandPaging.Proofs.Room

set_option autoImplicit false

namespace DemandPaging

variable [Platform]

theorem page_start (base address : Nat) (whole : Page.size ∣ base) (low : base ≤ address) :
    address / Page.size * Page.size = base + (address - base) / Page.size * Page.size := by
  obtain ⟨c, rfl⟩ := whole
  obtain ⟨d, rfl⟩ := Nat.exists_eq_add_of_le low
  rw [Nat.add_sub_cancel_left, Nat.mul_add_div Page.size_pos, Nat.add_mul, Nat.mul_comm c]

namespace Pager

section

variable (p q : Pager) (o : Managed)

theorem page_holds (address : Nat) (aligned : p.Aligned) (member : o ∈ p.objects) (holds : o.entry.Holds address) :
    o.entry.Holds (address / Page.size * Page.size) := by
  have whole := aligned o.mapping.span ((mem_spans p _).mpr ⟨o, member, List.mem_cons_self⟩)
  have start := page_start o.mapping.base address whole holds.1
  exact ⟨start ▸ Nat.le_add_right _ _, Nat.lt_of_le_of_lt (Nat.div_mul_le_self address Page.size) holds.2⟩

theorem body_of_page (x : Managed) (address k : Nat) (catalogue : Catalogue p) (aligned : p.Aligned) (member : o ∈ p.objects)
    (holds : o.entry.Holds address) (xMember : x ∈ p.objects) (inside : k < x.shape.bodyReserved)
    (place : address / Page.size * Page.size = x.mapping.base + (x.shape.headerPadded + k)) :
    o = x ∧ x.shape.headerPadded + k = (address - o.mapping.base) / Page.size * Page.size := by
  have own := same_of_address p o x _ catalogue member xMember (page_holds p o address aligned member holds)
    (place ▸ x.holds_of_offset _ (catalogue.sound x xMember) (Nat.add_lt_add_left inside _))
  subst own
  have whole := aligned o.mapping.span ((mem_spans p _).mpr ⟨o, member, List.mem_cons_self⟩)
  have start := page_start o.mapping.base address whole holds.1
  exact ⟨rfl, Nat.add_left_cancel (place.symm.trans start)⟩

theorem not_resident_of_missing (address : Nat) (ledger : Ledger p) (aligned : p.Aligned) (member : o ∈ p.objects)
    (holds : o.entry.Holds address) (missing : o.mapping.isPresent (address - o.mapping.base) = false) :
    ∀ x ∈ p.objects, ∀ k, k < x.shape.bodyReserved →
      address / Page.size * Page.size = x.mapping.base + (x.shape.headerPadded + k) →
      ¬ p.Resident x.id (k / x.shape.chunkLen) := by
  intro x xMember k inside place
  obtain ⟨own, offset⟩ := body_of_page p o x address k ledger.toCatalogue aligned member holds xMember inside place
  subst own
  rw [← ledger.present o member k inside, Managed.hasBody, Mapping.isPresent, offset, Nat.mul_div_cancel _ Page.size_pos]
  exact Bool.eq_false_iff.mp missing

theorem installed_resident (i : Nat) (bytes : Bytes) (inside : i < o.shape.chunks) (installed : Installed p o i bytes q) :
    q.Resident o.id i := by
  cases installed with
  | fresh queue wf records absent => exact (resident_installed p o i bytes _ inside records o.id i).mpr (Or.inr rfl)
  | present queue wf records resident =>
      obtain ⟨r, isLive, key⟩ := resident
      refine ⟨r, ?_, key⟩
      simp only [live, records] at isLive ⊢
      exact isLive

theorem resolved_present (later : Managed) (address : Nat) (ledger : Ledger p) (after : Ledger q) (aligned : p.Aligned)
    (member : o ∈ p.objects) (holds : o.entry.Holds address) (laterMember : later ∈ q.objects) (becomes : o.Becomes later)
    (resolved : Resolved p (address / Page.size * Page.size) q) :
    later.mapping.isPresent (address - o.mapping.base) = true := by
  have shape := o.becomes_shape later becomes
  generalize start : address / Page.size * Page.size = page at resolved
  cases resolved with
  | header x xMember low high =>
      have whole := aligned o.mapping.span ((mem_spans p _).mpr ⟨o, member, List.mem_cons_self⟩)
      have begins := page_start o.mapping.base address whole holds.1
      have xHolds := x.holds_of_header page (ledger.sound x xMember) low high
      have own := same_of_address p o x page ledger.toCatalogue member xMember
        (start ▸ page_holds p o address aligned member holds) xHolds
      subst own
      have before : (address - o.mapping.base) / Page.size < later.shape.headerPadded / Page.size := by
        rw [shape]
        apply Nat.lt_of_mul_lt_mul_right (a := Page.size)
        rw [o.shape.header_pages]
        omega
      exact (after.sound later laterMember).header _ before
  | body x now k calls bytes roomy supplied q xMember place inside room xBecomes nowMember sourced there installed =>
      obtain ⟨own, offset⟩ :=
        body_of_page p o x address k ledger.toCatalogue aligned member holds xMember inside (start.trans place)
      subst own
      have nowShape := o.becomes_shape now xBecomes
      have resident := installed_resident supplied q { now with calls } _ bytes
        (nowShape ▸ o.shape.chunk_of_offset_lt k inside) installed
      have body : k < later.shape.bodyReserved := shape ▸ inside
      have same : later.id = now.id := becomes.id.trans xBecomes.id.symm
      have present := (after.present later laterMember k body).mpr (by rw [same, shape]; exact resident)
      rw [Managed.hasBody, Mapping.isPresent, shape, offset, Nat.mul_div_cancel _ Page.size_pos] at present
      exact present

theorem missing_ensures (host : Host) (yields : host.Yields) (address : Nat) (ledger : Ledger p) (aligned : p.Aligned)
    (member : o ∈ p.objects) (holds : o.entry.Holds address)
    (missing : o.mapping.isPresent (address - o.mapping.base) = false) (given : o.template.filler ≠ none) :
    Ensures (resolve host (address / Page.size * Page.size)) p
      (fun _ q => Ledger q ∧ Resolved p (address / Page.size * Page.size) q)
      (fun halt _ => Justified p.settings.low o.template halt) := by
  apply ensures_mono _ _ _ _ _ _ (resolve_ensures host p _ ledger)
  · exact fun _ _ done => done
  · intro halt q failed
    generalize start : address / Page.size * Page.size = page at failed
    cases failed with
    | nowhere nowhere => exact absurd (start ▸ page_holds p o address aligned member holds) (nowhere o member)
    | unzeroed x xMember low high cause refused => cases (yields.zeros _).symm.trans refused
    | bringIn x k halt q xMember inside place stops =>
        rw [← start] at place
        obtain ⟨own, -⟩ := body_of_page p o x address k ledger.toCatalogue aligned member holds xMember inside place
        subst own
        -- The chunk is not resident, so the count of resident bytes has room for it.
        have chunk := o.shape.chunk_of_offset_lt k inside
        have absent := not_resident_of_missing p o address ledger aligned member holds missing o member k inside place
        exact justified_of_stops host p o _ halt q chunk given (room_for_chunk p o _ ledger member chunk absent) yields stops

end

end Pager

end DemandPaging
