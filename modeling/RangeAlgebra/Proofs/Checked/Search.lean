import RangeAlgebra.Proofs.Checked.Steps
import RangeAlgebra.Proofs.Search.Probes

/-!
The binary search in checked steps. Comparing the key with an element reads the element, which may
stop the search. Nothing else does: the search makes the comparisons at its probes in their order,
and its subtractions stay above zero. As the probes lie within the length, a search whose
comparisons stop nowhere below it gives what it gives otherwise. What is done with the position that
it ends at is not tested: for any length that is a signed word, so is the result.
-/

namespace RangeAlgebra.Search

open Checked

variable {α : Type}

def checkedLastPresent (compareAt : Nat → Checked α Ordering) (lower upper : Nat) :
    Checked α Nat :=
  if lower < upper then do
    require (lower ≤ upper) (.underflow upper lower)
    let middle := lower + (upper - lower + 1) / 2
    match ← compareAt middle with
    | .lt =>
      require (1 ≤ middle) (.underflow middle 1)
      checkedLastPresent compareAt lower (middle - 1)
    | .eq | .gt => checkedLastPresent compareAt middle upper
  else return lower
termination_by upper - lower

def checkedFirstPresent (compareAt : Nat → Checked α Ordering) (lower upper : Nat) :
    Checked α Nat :=
  if lower < upper then do
    require (lower ≤ upper) (.underflow upper lower)
    let middle := lower + (upper - lower) / 2
    match ← compareAt middle with
    | .gt => checkedFirstPresent compareAt (middle + 1) upper
    | .eq | .lt => checkedFirstPresent compareAt lower middle
  else return lower
termination_by upper - lower

def Present.checkedResolve (present : Present) (compareAt : Nat → Checked α Ordering)
    (lower found upper : Nat) : Checked α Int :=
  match present with
  | .any => return found
  | .last => return (← checkedLastPresent compareAt found upper : Nat)
  | .first => return (← checkedFirstPresent compareAt lower found : Nat)
  | .firstAfter => return (← checkedLastPresent compareAt found upper : Nat) + 1
  | .lastBefore => return (← checkedFirstPresent compareAt lower found : Nat) - 1

def checkedLocateWithin (compareAt : Nat → Checked α Ordering) (present : Present)
    (absent : Absent) (lower upper : Nat) : Checked α Int :=
  if lower < upper then do
    require (lower ≤ upper) (.underflow upper lower)
    let middle := lower + (upper - lower) / 2
    match ← compareAt middle with
    | .lt => checkedLocateWithin compareAt present absent lower middle
    | .gt => checkedLocateWithin compareAt present absent (middle + 1) upper
    | .eq =>
      require (1 ≤ upper) (.underflow upper 1)
      present.checkedResolve compareAt lower middle (upper - 1)
  else return absent.resolve lower
termination_by upper - lower

def checkedLocate (length : Nat) (present : Present) (absent : Absent)
    (compareAt : Nat → Checked α Ordering) : Checked α Int :=
  checkedLocateWithin compareAt present absent 0 length

namespace Probed

variable {β γ : Type}

/-- The comparisons at the probes in their order, and then the result. -/
def replay (probed : Probed β) (compareAt : Nat → Checked α Ordering) : Checked α β :=
  probed.probes.foldr (fun position rest => compareAt position >>= fun _ => rest)
    (.ok probed.result)

theorem replay_cons (result : β) (position : Nat) (probes : List Nat)
    (compareAt : Nat → Checked α Ordering) :
    (⟨result, position :: probes⟩ : Probed β).replay compareAt =
      compareAt position >>= fun _ => (⟨result, probes⟩ : Probed β).replay compareAt :=
  rfl

theorem replay_map (probed : Probed β) (f : β → γ) (compareAt : Nat → Checked α Ordering) :
    (probed.map f).replay compareAt = probed.replay compareAt >>= fun result => .ok (f result) := by
  obtain ⟨result, probes⟩ := probed
  induction probes with
  | nil => rfl
  | cons position probes ih =>
      rw [map] at ih ⊢
      rw [replay_cons, replay_cons]
      cases compareAt position with
      | error breach => rfl
      | ok answer => exact ih

/-- Comparisons that stop at no probe leave the result. -/
theorem replay_eq_ok {probed : Probed β} {compareAt : Nat → Checked α Ordering}
    (h : ∀ i ∈ probed.probes, ∃ answer, compareAt i = .ok answer) :
    probed.replay compareAt = .ok probed.result := by
  obtain ⟨result, probes⟩ := probed
  induction probes with
  | nil => rfl
  | cons position probes ih =>
      obtain ⟨answer, hanswer⟩ := h position List.mem_cons_self
      have hrest := ih fun i hi => h i (List.mem_cons_of_mem position hi)
      rw [replay_cons, hanswer, ok_bind]
      exact hrest

end Probed

/-- Comparing may stop, and below the length gives no other answers than those. -/
def Follows (compareAt : Nat → Checked α Ordering) (compared : Nat → Ordering)
    (length : Nat) : Prop :=
  ∀ i, i < length → ∀ answer, compareAt i = .ok answer → answer = compared i

/-- Comparing stops at no position below the length. -/
def Compares (compareAt : Nat → Checked α Ordering) (compared : Nat → Ordering)
    (length : Nat) : Prop :=
  ∀ i, i < length → compareAt i = .ok (compared i)

variable {compareAt : Nat → Checked α Ordering} {compared : Nat → Ordering} {length : Nat}

theorem Compares.follows (h : Compares compareAt compared length) :
    Follows compareAt compared length := by
  intro i hi answer hanswer
  rw [h i hi] at hanswer
  cases hanswer
  rfl

/-- A step that compares and goes on makes that comparison and whatever it goes on with. -/
theorem Follows.bind_eq {γ : Type} (h : Follows compareAt compared length) (position : Nat)
    (hposition : position < length) {next : Ordering → Checked α γ} {rest : Checked α γ}
    (hnext : next (compared position) = rest) :
    (compareAt position >>= next) = compareAt position >>= fun _ => rest := by
  cases hanswer : compareAt position with
  | error breach => rfl
  | ok answer =>
      cases h position hposition answer hanswer
      exact hnext

theorem checkedLastPresent_eq (h : Follows compareAt compared length) {lower upper : Nat}
    (hupper : upper < length) :
    checkedLastPresent compareAt lower upper =
      (lastPresent compared lower upper).replay compareAt := by
  fun_induction lastPresent compared lower upper with
  | case1 lower upper hlt middle hcompare ih =>
      rw [checkedLastPresent, if_pos hlt, require_of (Nat.le_of_lt hlt), ok_bind]
      refine h.bind_eq middle (by omega) ?_
      rw [hcompare]
      change require (1 ≤ middle) _ >>= _ = _
      rw [require_of (by omega), ok_bind]
      exact ih (by omega)
  | case2 lower upper hlt middle hcompare ih =>
      rw [checkedLastPresent, if_pos hlt, require_of (Nat.le_of_lt hlt), ok_bind]
      refine h.bind_eq middle (by omega) ?_
      rw [hcompare]
      exact ih hupper
  | case3 lower upper hlt middle hcompare ih =>
      rw [checkedLastPresent, if_pos hlt, require_of (Nat.le_of_lt hlt), ok_bind]
      refine h.bind_eq middle (by omega) ?_
      rw [hcompare]
      exact ih hupper
  | case4 lower upper hge =>
      rw [checkedLastPresent, if_neg hge]
      rfl

theorem checkedFirstPresent_eq (h : Follows compareAt compared length) {lower upper : Nat}
    (hupper : upper < length) :
    checkedFirstPresent compareAt lower upper =
      (firstPresent compared lower upper).replay compareAt := by
  fun_induction firstPresent compared lower upper with
  | case1 lower upper hlt middle hcompare ih =>
      rw [checkedFirstPresent, if_pos hlt, require_of (Nat.le_of_lt hlt), ok_bind]
      refine h.bind_eq middle (by omega) ?_
      rw [hcompare]
      exact ih hupper
  | case2 lower upper hlt middle hcompare ih =>
      rw [checkedFirstPresent, if_pos hlt, require_of (Nat.le_of_lt hlt), ok_bind]
      refine h.bind_eq middle (by omega) ?_
      rw [hcompare]
      exact ih (by omega)
  | case3 lower upper hlt middle hcompare ih =>
      rw [checkedFirstPresent, if_pos hlt, require_of (Nat.le_of_lt hlt), ok_bind]
      refine h.bind_eq middle (by omega) ?_
      rw [hcompare]
      exact ih (by omega)
  | case4 lower upper hge =>
      rw [checkedFirstPresent, if_neg hge]
      rfl

theorem Present.checkedResolve_eq (h : Follows compareAt compared length) (present : Present)
    {lower found upper : Nat} (hfound : found < length) (hupper : upper < length) :
    present.checkedResolve compareAt lower found upper =
      (present.resolve compared lower found upper).replay compareAt := by
  have hlast : checkedLastPresent compareAt found upper =
      (lastPresent compared found upper).replay compareAt := checkedLastPresent_eq h hupper
  have hfirst : checkedFirstPresent compareAt lower found =
      (firstPresent compared lower found).replay compareAt := checkedFirstPresent_eq h hfound
  cases present with
  | any => rfl
  | last =>
      rw [checkedResolve, hlast, resolve, Probed.replay_map]
      rfl
  | first =>
      rw [checkedResolve, hfirst, resolve, Probed.replay_map]
      rfl
  | firstAfter =>
      rw [checkedResolve, hlast, resolve, Probed.replay_map]
      rfl
  | lastBefore =>
      rw [checkedResolve, hfirst, resolve, Probed.replay_map]
      rfl

theorem checkedLocateWithin_eq (h : Follows compareAt compared length) (present : Present)
    (absent : Absent) {lower upper : Nat} (hupper : upper ≤ length) :
    checkedLocateWithin compareAt present absent lower upper =
      (locateWithin compared present absent lower upper).replay compareAt := by
  fun_induction locateWithin compared present absent lower upper with
  | case1 lower upper hlt middle hcompare ih =>
      rw [checkedLocateWithin, if_pos hlt, require_of (Nat.le_of_lt hlt), ok_bind]
      refine h.bind_eq middle (by omega) ?_
      rw [hcompare]
      exact ih (by omega)
  | case2 lower upper hlt middle hcompare ih =>
      rw [checkedLocateWithin, if_pos hlt, require_of (Nat.le_of_lt hlt), ok_bind]
      refine h.bind_eq middle (by omega) ?_
      rw [hcompare]
      exact ih hupper
  | case3 lower upper hlt middle hcompare =>
      rw [checkedLocateWithin, if_pos hlt, require_of (Nat.le_of_lt hlt), ok_bind]
      refine h.bind_eq middle (by omega) ?_
      rw [hcompare]
      change require (1 ≤ upper) _ >>= _ = _
      rw [require_of (by omega), ok_bind]
      exact present.checkedResolve_eq h (by omega) (by omega)
  | case4 lower upper hge =>
      rw [checkedLocateWithin, if_neg hge]
      rfl

/-- The search in checked steps stops where its comparisons do, and nowhere else. -/
theorem checkedLocate_eq_replay (h : Follows compareAt compared length) (present : Present)
    (absent : Absent) :
    checkedLocate length present absent compareAt =
      (locate length present absent compared).replay compareAt :=
  checkedLocateWithin_eq h present absent (Nat.le_refl length)

/-- A search stops nowhere if no comparison below the length does. -/
theorem checkedLocate_eq (h : Compares compareAt compared length) (present : Present)
    (absent : Absent) :
    checkedLocate length present absent compareAt =
      .ok (locate length present absent compared).result := by
  rw [checkedLocate_eq_replay h.follows]
  apply Probed.replay_eq_ok
  intro i hi
  exact ⟨compared i, h i (lt_of_mem_locate_probes compared length present absent i hi)⟩

/-- Whatever the comparisons answer, a search compares at positions of the sequence only, nowhere if
there are none, and at most once for each binary digit of the length. The probes are all that it
compares, in this order: where comparisons may stop, the search in checked steps does what going
through the probes does. If they never stop, it has the result, so no subtraction on the way goes
below zero. That result is a signed word if the length is. -/
theorem probes_logarithmic (length : Nat) (present : Present) (absent : Absent)
    (compared : Nat → Ordering) :
    let search := locate length present absent compared
    (∀ i ∈ search.probes, i < length) ∧ (length = 0 → search.probes = []) ∧
      (0 < length → search.probes.length ≤ length.log2 + 1) ∧
      ((length : Int) ≤ IntegerKind.intWord.maximum →
        IntegerKind.intWord.minimum ≤ search.result ∧
          search.result ≤ IntegerKind.intWord.maximum) ∧
      ∀ α : Type,
        (∀ compareAt : Nat → Checked α Ordering, Follows compareAt compared length →
          checkedLocate length present absent compareAt = search.replay compareAt) ∧
        checkedLocate length present absent (fun i => (.ok (compared i) : Checked α Ordering)) =
          .ok search.result := by
  intro search
  have hcount := length_locate_probes_le compared length present absent
  refine ⟨lt_of_mem_locate_probes compared length present absent, ?_, ?_,
    fun hword => locate_result_word compared hword present absent, fun α => ⟨?_, ?_⟩⟩
  · intro hzero
    rw [if_pos hzero] at hcount
    exact List.eq_nil_of_length_eq_zero (Nat.le_zero.mp hcount)
  · intro hpositive
    rwa [if_neg (Nat.ne_of_gt hpositive)] at hcount
  · intro compareAt hfollows
    exact checkedLocate_eq_replay hfollows present absent
  · exact checkedLocate_eq (fun i _ => rfl) present absent

/-- The comparisons are not sorted, and the one at position 9 stops. The search meets an occurrence
at its second probe and looks for the last one from there. -/
theorem probes_logarithmic_unsorted :
    let compared (i : Nat) : Ordering := if i = 6 then .gt else .eq
    let compareAt (i : Nat) : Checked Int Ordering :=
      if i = 9 then .error (.position 9 12) else .ok (compared i)
    let search := locate 12 .last .nextHigher compared
    search.probes = [6, 9, 10, 11] ∧ (∀ i ∈ search.probes, i < 12) ∧
      search.probes.length ≤ Nat.log2 12 + 1 ∧
      search.result ≤ IntegerKind.intWord.maximum ∧
      (locate 0 .last .nextHigher compared).probes = [] ∧
      checkedLocate 12 .last .nextHigher compareAt = search.replay compareAt ∧
      checkedLocate 12 .last .nextHigher compareAt = .error (.position 9 12) := by
  intro compared compareAt search
  have hprobes : search.probes = [6, 9, 10, 11] := by decide +kernel
  have hfollows : Follows compareAt compared 12 := by
    intro i _ answer hanswer
    by_cases hstop : i = 9
    · simp [compareAt, hstop] at hanswer
    · simpa [compareAt, hstop, eq_comm] using hanswer
  obtain ⟨hbounds, -, hcount, hword, hchecked⟩ := probes_logarithmic 12 .last .nextHigher compared
  obtain ⟨-, hnone, -⟩ := probes_logarithmic 0 .last .nextHigher compared
  have hreplay := (hchecked Int).1 compareAt hfollows
  refine ⟨hprobes, hbounds, hcount (by decide), (hword (by decide)).2, hnone rfl, hreplay,
    hreplay.trans ?_⟩
  rw [Probed.replay,
    show (locate 12 .last .nextHigher compared).probes = [6, 9, 10, 11] from hprobes]
  rfl

end RangeAlgebra.Search
