import Mathlib.Algebra.BigOperators.Group.Finset.Basic
import Mathlib.Order.Interval.Finset.Nat
import DemandPaging.Proofs.BringingIn

set_option autoImplicit false

namespace DemandPaging.Pager

variable [Platform]

def taken (r : Residency) : Finset Nat := Finset.Ico r.address (r.address + r.len)

section

variable (p : Pager)

theorem located_of_taken (r : Residency) (o : Managed) (address : Nat) (sound : o.Sound) (of : r.Of o)
    (inside : address ∈ taken r) : o.entry.Holds address ∧
      (address - o.mapping.base - o.shape.headerPadded) / o.shape.chunkLen = r.chunk := by
  have ends := o.shape.piece_end_le r.chunk of.chunk
  have located := o.shape.piece_of_offset (address - o.mapping.base - o.shape.headerPadded) r.chunk of.chunk
  have len := sound.len
  rw [taken, Finset.mem_Ico, of.address, of.len] at inside
  obtain ⟨low, high⟩ := inside
  refine ⟨⟨?_, ?_⟩, (located.mp ⟨by omega, by omega⟩).2⟩
  · show o.mapping.base ≤ address
    omega
  · show address < o.mapping.base + o.mapping.len
    rw [len, Shape.size]
    omega

theorem same_key_of_taken (r s : Residency) (address : Nat) (catalogue : Catalogue p)
    (first : ∃ o ∈ p.objects, r.Of o) (second : ∃ o ∈ p.objects, s.Of o) (inFirst : address ∈ taken r)
    (inSecond : address ∈ taken s) : r.key = s.key := by
  obtain ⟨o, member, of⟩ := first
  obtain ⟨x, xMember, xOf⟩ := second
  obtain ⟨holds, chunk⟩ := located_of_taken r o address (catalogue.sound o member) of inFirst
  obtain ⟨xHolds, xChunk⟩ := located_of_taken s x address (catalogue.sound x xMember) xOf inSecond
  have same := same_of_address p o x address catalogue member xMember holds xHolds
  subst same
  exact Prod.ext (of.owner.trans xOf.owner.symm) (chunk.symm.trans xChunk)

theorem total_lt_limit (records : List Residency) (catalogue : Catalogue p) (distinct : (records.map Residency.key).Nodup)
    (owned : ∀ r ∈ records, ∃ o ∈ p.objects, r.Of o) : (records.map Residency.len).sum < Word.limit := by
  have apart : (records.toFinset : Set Residency).PairwiseDisjoint taken := by
    intro r rMember s sMember different
    rw [Finset.mem_coe, List.mem_toFinset] at rMember sMember
    rw [Function.onFun, Finset.disjoint_left]
    intro address inFirst inSecond
    apply different
    exact List.inj_on_of_nodup_map distinct rMember sMember
      (same_key_of_taken p r s address catalogue (owned r rMember) (owned s sMember) inFirst inSecond)
  have below : records.toFinset.biUnion taken ⊆ Finset.range (Word.limit - 1) := by
    intro address inside
    obtain ⟨r, member, taking⟩ := Finset.mem_biUnion.mp inside
    obtain ⟨o, oMember, of⟩ := owned r (List.mem_toFinset.mp member)
    have high := (located_of_taken r o address (catalogue.sound o oMember) of taking).1.2
    have stop : o.entry.stop < Word.limit := (object_bounds p o catalogue oMember).2
    exact Finset.mem_range.mpr (by omega)
  have limit : 0 < Word.limit := by decide
  have bounded : (records.map Residency.len).sum ≤ Word.limit - 1 := by
    calc (records.map Residency.len).sum
        = ∑ r ∈ records.toFinset, r.len := (List.sum_toFinset _ (List.Nodup.of_map _ distinct)).symm
      _ = ∑ r ∈ records.toFinset, (taken r).card := by
          apply Finset.sum_congr rfl
          intro r _
          rw [taken, Nat.card_Ico, Nat.add_sub_cancel_left]
      _ = (records.toFinset.biUnion taken).card := (Finset.card_biUnion apart).symm
      _ ≤ (Finset.range (Word.limit - 1)).card := Finset.card_le_card below
      _ = Word.limit - 1 := Finset.card_range _
  omega

theorem room_for_chunk (o : Managed) (i : Nat) (ledger : Ledger p) (member : o ∈ p.objects) (inside : i < o.shape.chunks)
    (absent : ¬ p.Resident o.id i) : p.resident + (o.shape.piece i).fillLen < Word.limit := by
  have total := total_lt_limit p (o.recordOf i #[] :: p.live) ledger.toCatalogue ?_ ?_
  · rw [List.map_cons, List.sum_cons, sum_live, ledger.total, Nat.add_comm] at total
    exact total
  · rw [List.map_cons, List.nodup_cons]
    refine ⟨fun known => absent ?_, ledger.distinct⟩
    obtain ⟨r, isLive, key⟩ := List.mem_map.mp known
    exact ⟨r, isLive, key⟩
  · intro r rMember
    rcases List.mem_cons.mp rMember with rfl | isLive
    · exact ⟨o, member, o.record_of i #[] inside⟩
    · exact ledger.owned r isLive

end

end DemandPaging.Pager
