/-
# Nothing deliverable waits

Whether the frame that comes next may be left standing at the head of the reorder list. On a settled
entry it cannot: the list begins two numbers ahead of `LastIndSeq` at least. The only operation that
leaves an entry unsettled is the one that indicates a frame past the list, and it leaves exactly the
successor of that frame at the head.
-/
import Mt7601.Ba.Runs

namespace Mt7601.Ba

open SeqNum

/-! ## 1. The head of the list -/

/-- The head of the reorder list carries the number behind `LastIndSeq`. -/
def NextWaits (e : BaRecEntry) : Prop :=
  ∃ head, baReorderingMpduProbe e.list = some head ∧ head.sequence.val = (e.lastIndSeq + 1) % 4096

/-- No list of the adapter has the next frame at its head. -/
def NoneWaits (ad : Adapter) : Prop := ∀ idx, ¬ NextWaits (ad.baRecEntry idx)

theorem mem_keys_of_probe {e : BaRecEntry} {head : ReorderingMpdu}
    (h : baReorderingMpduProbe e.list = some head) : head.sequence.val ∈ e.keys := by
  unfold baReorderingMpduProbe at h
  exact List.mem_map.mpr ⟨head, List.mem_of_head? h, rfl⟩

theorem Settled.not_nextWaits {e : BaRecEntry} (h : Settled e) : ¬ NextWaits e := by
  rintro ⟨head, hhead, hseq⟩
  have hmem := mem_keys_of_probe hhead
  have hgap := h.gap _ hmem
  rw [hseq, offset_mod (by decide), offset_add (by decide)] at hgap
  exact absurd hgap (Nat.lt_irrefl 1)

/-- In a list in order, the next number can only stand at the head. -/
theorem Ordered.nextWaits {e : BaRecEntry} (h : Ordered e) (hmem : (e.lastIndSeq + 1) % 4096 ∈ e.keys) :
    NextWaits e := by
  obtain ⟨head, rest, hnext⟩ : ∃ head rest, e.list.next = head :: rest := by
    cases hnil : e.list.next with
    | nil => simp [BaRecEntry.keys, hnil] at hmem
    | cons head rest => exact ⟨head, rest, rfl⟩
  have hkeys : e.keys = head.sequence.val :: rest.map fun m => m.sequence.val := by
    simp [BaRecEntry.keys, hnext]
  refine ⟨head, by rw [baReorderingMpduProbe, hnext, List.head?_cons], ?_⟩
  have hwin := h.window
  rw [hkeys] at hwin hmem
  rcases List.mem_cons.mp hmem with heq | hin
  · exact heq.symm
  · have hone : offset 4096 e.lastIndSeq ((e.lastIndSeq + 1) % 4096) = 1 := by
      rw [offset_mod (by decide), offset_add (by decide)]
    have hlt := hwin.head_lt hin
    have hpos := hwin.pos _ List.mem_cons_self
    omega

/-! ## 2. Runs -/

/-- **The stranded frame waits.** An operation that strands the successor of a frame leaves it at the
head of the list as the next one. -/
theorem StrandsSuccessor.waits {hz : OsHz} {ad : Adapter} {op : Op} (h : Table Settled ad)
    (hst : StrandsSuccessor hz ad op) : ¬ NoneWaits (step hz ad op) := by
  intro hnone
  cases op with
  | indicate blk now =>
    obtain ⟨hf, hst⟩ := hst
    obtain ⟨-, -, -, -, hpos⟩ := h.mapped _ _ hf.2.2
    have hind := indicateOnEntry_spec hz (ad.rx (ad.baRecWcidArray blk.wcid blk.tid)) blk now
      (h.entry _) hpos
    obtain ⟨hlast, hmem⟩ := hind.stranded hst
    have hwaits := hind.ordered.nextWaits (by rw [hlast]; exact hmem)
    have hno := hnone (ad.baRecWcidArray blk.wcid blk.tid)
    rw [step, indicateAmpduPacket_eq hf, Adapter.store_entry_self] at hno
    exact hno hwaits
  | _ => exact hst

namespace Example

end Example

end Mt7601.Ba
