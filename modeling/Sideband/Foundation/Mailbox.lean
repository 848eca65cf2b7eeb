import Mathlib.Data.Finset.Card
import Mathlib.Data.List.Nodup
import Mathlib.Data.List.Perm.Subperm
import Mathlib.Logic.Function.Basic
import Sideband.Foundation.Machine

/-!
# Boxes for letters

A writer puts letters, numbered in the order of the writing, into boxes; a reader takes a letter out
of a box. A letter is put before its writing is finished, and a letter that lies in a box may be
thrown away or covered by another one. The reader only takes letters that are finished, so in every
run each letter is taken at most once (`mailbox_nodup`). Where the numbers stand for texts, what was
read is among the texts that were finished, none of them more often than it was written
(`mailbox_subperm`).
-/

namespace Foundation

universe u v

variable {κ : Type u} [DecidableEq κ]

/-- The boxes, and a record of the letters that were taken. Letters are numbered from `0` in the
order of the writing, and a box holds the number of the letter that was put there last. -/
structure Mailbox (κ : Type u) where
  finished : ℕ := 0
  /-- The letter after the finished ones has been put. -/
  writing : Bool := false
  boxes : κ → Option ℕ := fun _ => none
  taken : List ℕ := []

/-- What the writer and the reader do. Throwing away is anything that makes a letter unreadable,
also that something else is laid over it. -/
inductive MailboxStep (κ : Type u)
  | put (box : κ)
  | finish
  | throwAway (box : κ)
  | take (box : κ)

/-- The mailbox as a machine. The writer puts one letter at a time, into any box and over
whatever lies there; the reader takes a letter out of any box, once its writing is finished. -/
def mailbox : Machine (Mailbox κ) (MailboxStep κ) where
  init m := m = {}
  next m
    | .put box =>
      if m.writing then none
      else some { m with writing := true, boxes := Function.update m.boxes box (some m.finished) }
    | .finish =>
      if m.writing then some { m with writing := false, finished := m.finished + 1 } else none
    | .throwAway box => some { m with boxes := Function.update m.boxes box none }
    | .take box =>
      match m.boxes box with
      | some n =>
        if n < m.finished then
          some { m with boxes := Function.update m.boxes box none, taken := m.taken ++ [n] }
        else none
      | none => none

variable {m m' : Mailbox κ} {box : κ} {n : ℕ}

theorem mailbox_put (h : m.writing = false) : mailbox.next m (.put box) =
    some { m with writing := true, boxes := Function.update m.boxes box (some m.finished) } := by
  simp only [mailbox, h, Bool.false_eq_true, if_false]

theorem mailbox_finish (h : m.writing = true) : mailbox.next m .finish =
    some { m with writing := false, finished := m.finished + 1 } := if_pos h

theorem mailbox_take (h : m.boxes box = some n) (hn : n < m.finished) :
    mailbox.next m (.take box) =
      some { m with boxes := Function.update m.boxes box none, taken := m.taken ++ [n] } := by
  simp only [mailbox, h, hn, if_true]

/-- Letters lie in one box each, and are not taken while they lie there. -/
structure Mailbox.Orderly (m : Mailbox κ) : Prop where
  /-- The letters that were put: the finished ones, and the one that is being written. -/
  boxes_le : ∀ box n, m.boxes box = some n → n < m.finished ∨ (n = m.finished ∧ m.writing = true)
  injective : ∀ box other n, m.boxes box = some n → m.boxes other = some n → box = other
  notMem : ∀ box n, m.boxes box = some n → n ∉ m.taken
  nodup : m.taken.Nodup
  taken_lt : ∀ n ∈ m.taken, n < m.finished

namespace Mailbox.Orderly

/-- Emptying a box keeps the order. -/
theorem empty (h : m.Orderly) (box : κ) :
    Orderly { m with boxes := Function.update m.boxes box none } := by
  have hkept : ∀ {other n}, Function.update m.boxes box none other = some n →
      m.boxes other = some n := fun hother => (update_none_eq_some_iff.mp hother).2
  exact ⟨fun b n hb => h.boxes_le b n (hkept hb),
    fun b c n hb hc => h.injective b c n (hkept hb) (hkept hc),
    fun b n hb => h.notMem b n (hkept hb), h.nodup, h.taken_lt⟩

/-- The letter that is put is a new one. -/
theorem put (h : m.Orderly) (hwriting : m.writing = false) (box : κ) :
    Orderly { m with
      writing := true, boxes := Function.update m.boxes box (some m.finished) } := by
  have hold : ∀ {other n}, m.boxes other = some n → n < m.finished := by
    intro other n hother
    rcases h.boxes_le other n hother with hlt | ⟨-, hopen⟩
    · exact hlt
    · rw [hwriting] at hopen
      cases hopen
  have hcases : ∀ {other n}, Function.update m.boxes box (some m.finished) other = some n →
      (other = box ∧ n = m.finished) ∨ (m.boxes other = some n ∧ n < m.finished) := by
    intro other n hother
    rcases update_some_eq_some_iff.mp hother with hnew | ⟨-, hother⟩
    · exact .inl hnew
    · exact .inr ⟨hother, hold hother⟩
  refine ⟨?_, ?_, ?_, h.nodup, h.taken_lt⟩
  · intro other n hother
    rcases hcases hother with ⟨-, rfl⟩ | ⟨-, hlt⟩
    · exact .inr ⟨rfl, rfl⟩
    · exact .inl hlt
  · -- two boxes with one letter both hold the new one, or both an older one
    intro b c n hb hc
    rcases hcases hb with ⟨rfl, hn⟩ | ⟨hb, hlt⟩
    · rcases hcases hc with ⟨rfl, -⟩ | ⟨-, hlt⟩
      · rfl
      · exact absurd hn hlt.ne
    · rcases hcases hc with ⟨-, hn⟩ | ⟨hc, -⟩
      · exact absurd hn hlt.ne
      · exact h.injective b c n hb hc
  · intro other n hother hmem
    rcases hcases hother with ⟨-, rfl⟩ | ⟨hother, -⟩
    · exact Nat.lt_irrefl _ (h.taken_lt _ hmem)
    · exact h.notMem other n hother hmem

omit [DecidableEq κ] in
theorem finish (h : m.Orderly) :
    Orderly { m with writing := false, finished := m.finished + 1 } := by
  refine ⟨?_, h.injective, h.notMem, h.nodup, fun n hn => Nat.lt_succ_of_lt (h.taken_lt n hn)⟩
  intro box n hbox
  rcases h.boxes_le box n hbox with hlt | ⟨rfl, -⟩
  · exact .inl (Nat.lt_succ_of_lt hlt)
  · exact .inl (Nat.lt_succ_self _)

theorem take (h : m.Orderly) (hbox : m.boxes box = some n) (hn : n < m.finished) :
    Orderly { m with boxes := Function.update m.boxes box none, taken := m.taken ++ [n] } := by
  obtain ⟨hle, hinjective, hnotMem, hnodup, hlt⟩ := h.empty box
  refine ⟨hle, hinjective, ?_, ?_, ?_⟩
  · intro other k hother hmem
    rcases List.mem_append.mp hmem with hmem | hmem
    · exact hnotMem other k hother hmem
    · obtain rfl := List.mem_singleton.mp hmem
      -- the letter lay in `box` alone, and `box` is empty now
      obtain ⟨hne, hfull⟩ := update_none_eq_some_iff.mp hother
      exact hne (h.injective other box k hfull hbox)
  · refine List.nodup_append'.mpr ⟨hnodup, List.nodup_singleton n, ?_⟩
    rw [List.disjoint_singleton]
    exact h.notMem box n hbox
  · intro k hmem
    rcases List.mem_append.mp hmem with hmem | hmem
    · exact hlt k hmem
    · rwa [List.mem_singleton.mp hmem]

end Mailbox.Orderly

theorem mailbox_orderly {ok : Mailbox κ → MailboxStep κ → Prop} (h : mailbox.Reachable ok m) :
    m.Orderly := by
  refine h.invariant ?_ ?_
  · rintro m rfl
    exact ⟨fun _ _ hbox => (nomatch hbox), fun _ _ _ hbox => (nomatch hbox),
      fun _ _ hbox => (nomatch hbox), List.nodup_nil, fun _ hn => absurd hn List.not_mem_nil⟩
  · intro m a m' hinv _ hnext
    -- one case per step, each by its lemma
    cases a with
    | put box =>
      simp only [mailbox] at hnext
      split_ifs at hnext with hwriting
      cases hnext
      exact hinv.put (Bool.eq_false_of_not_eq_true hwriting) box
    | finish =>
      simp only [mailbox] at hnext
      split_ifs at hnext
      cases hnext
      exact hinv.finish
    | throwAway box =>
      cases hnext
      exact hinv.empty box
    | take box =>
      simp only [mailbox] at hnext
      split at hnext
      · next n hbox =>
        split_ifs at hnext with hn
        cases hnext
        exact hinv.take hbox hn
      · cases hnext

variable {ok : Mailbox κ → MailboxStep κ → Prop}

/-- No letter is taken twice. -/
theorem mailbox_nodup (h : mailbox.Reachable ok m) : m.taken.Nodup := (mailbox_orderly h).nodup

private theorem map_getElem?_of_forall₂ {α : Type v} {letters read : List α} {ns : List ℕ}
    (h : List.Forall₂ (fun a n => letters[n]? = some a) read ns) :
    (ns.map fun n => letters[n]?) = read.map some := by
  induction h with
  | nil => rfl
  | cons hhead _ ih => rw [List.map_cons, List.map_cons, hhead, ih]

/-- What was read is among the finished letters: the texts of the numbers taken are a sublist of
the texts written, up to order. -/
theorem mailbox_subperm {α : Type v} (h : mailbox.Reachable ok m) {letters read : List α}
    (hfinished : m.finished = letters.length)
    (hread : List.Forall₂ (fun a n => letters[n]? = some a) read m.taken) :
    read.Subperm letters := by
  have horderly := mailbox_orderly h
  have hsubset : m.taken ⊆ List.range letters.length := by
    intro n hn
    rw [← hfinished]
    exact List.mem_range.mpr (horderly.taken_lt n hn)
  -- each number leads to its own place among the letters
  obtain ⟨ns, hperm, hsublist⟩ := horderly.nodup.subperm hsubset
  have hmap : (m.taken.map fun n => letters[n]?).Subperm
      ((List.range letters.length).map fun n => letters[n]?) :=
    ⟨ns.map fun n => letters[n]?, hperm.map _, hsublist.map _⟩
  have hletters : ((List.range letters.length).map fun n => letters[n]?) = letters.map some := by
    refine List.ext_getElem (by simp) fun n hn hn' => ?_
    simp
  rwa [map_getElem?_of_forall₂ hread, hletters,
    List.map_subperm_map_iff (Option.some_injective α)] at hmap

end Foundation
