import Mathlib.Data.List.Pairwise
import Mathlib.Data.List.Perm.Subperm

/-! # Bookings up to a mark

What lies before a mark has been booked. A task books something that begins at the mark and
moves the mark to where it ends, before or after the booking takes effect. As long as the mark is
moved past every booking before the next one is made, no two bookings share anything.
-/

namespace DMS.Bookings

variable {β : Type}

structure Extent (β : Type) where
  begins : β → Int → Prop
  ends : β → Int → Prop
  shares : β → β → Prop
  symm : ∀ {b b'}, shares b b' → shares b' b
  mono : ∀ {b m m'}, ends b m → m ≤ m' → ends b m'
  apart : ∀ {b b' m}, ends b m → begins b' m → ¬ shares b b'

/-- The mark, the bookings that lie before it, and those past which it is still to be moved, with
where it will be moved to. -/
structure Book (β : Type) where
  mark : Int
  settled : List β
  pending : List (β × Int)

def Book.booked (s : Book β) : List β := s.settled ++ s.pending.map Prod.fst

/-- No two bookings share anything, and each of them ends before the mark, or before where the
mark will be moved to. -/
structure Kept (E : Extent β) (s : Book β) : Prop where
  apart : s.booked.Pairwise fun b b' => ¬ E.shares b b'
  ended : ∀ b ∈ s.settled, E.ends b s.mark
  ending : ∀ p ∈ s.pending, E.ends p.1 p.2

variable {E : Extent β} {s : Book β}

theorem apart_of_subperm {l l' : List β} (h : l.Pairwise fun b b' => ¬ E.shares b b')
    (hsub : l'.Subperm l) : l'.Pairwise fun b b' => ¬ E.shares b b' := by
  obtain ⟨kept, hperm, hsublist⟩ := hsub
  have hsymm : ∀ {b b' : β}, ¬ E.shares b b' → ¬ E.shares b' b :=
    fun hnot hshares => hnot (E.symm hshares)
  exact (hperm.pairwise_iff hsymm).mp (h.sublist hsublist)

theorem Kept.of_subperm (h : Kept E s) {s' : Book β} (hmark : s'.mark = s.mark)
    (hsettled : s'.settled.Subperm s.settled) (hpending : s'.pending.Subperm s.pending) :
    Kept E s' := by
  have hfirst : (s'.pending.map Prod.fst).Subperm (s.pending.map Prod.fst) := by
    obtain ⟨kept, hperm, hsublist⟩ := hpending
    exact ⟨kept.map Prod.fst, hperm.map _, hsublist.map _⟩
  refine ⟨apart_of_subperm h.apart (hsettled.append hfirst), ?_, ?_⟩
  · intro b hb
    rw [hmark]
    exact h.ended b (hsettled.subset hb)
  · exact fun p hp => h.ending p (hpending.subset hp)

/-- A booking while nothing is pending. -/
theorem Kept.book {mark settled} (h : Kept E ⟨mark, settled, []⟩) {b t}
    (hbegins : E.begins b mark) (hends : E.ends b t) : Kept E ⟨mark, settled, [(b, t)]⟩ := by
  refine ⟨List.pairwise_append.mpr ⟨?_, List.pairwise_singleton _ b, ?_⟩, h.ended, ?_⟩
  · exact h.apart.sublist (List.sublist_append_left _ _)
  · intro b' hb' b'' hb''
    rw [List.mem_singleton.mp hb'']
    exact E.apart (h.ended b' hb') hbegins
  · exact List.forall_mem_singleton.mpr hends

theorem Kept.move (h : Kept E s) {t} (hle : s.mark ≤ t) : Kept E ⟨t, s.settled, s.pending⟩ :=
  ⟨h.apart, fun b hb => E.mono (h.ended b hb) hle, h.ending⟩

/-- The mark is moved past a booking. -/
theorem Kept.settle {mark t settled b pending} (h : Kept E ⟨mark, settled, (b, t) :: pending⟩)
    (hle : mark ≤ t) : Kept E ⟨t, b :: settled, pending⟩ := by
  refine ⟨apart_of_subperm h.apart List.perm_middle.symm.subperm, ?_, ?_⟩
  · intro b' hb'
    rcases List.mem_cons.mp hb' with rfl | hb'
    · exact h.ending (b', t) (.head _)
    · exact E.mono (h.ended b' hb') hle
  · exact fun p hp => h.ending p (.tail _ hp)

end DMS.Bookings
