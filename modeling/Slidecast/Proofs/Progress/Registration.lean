import Slidecast.Proofs.Progress.Told

/-!
# Observers that come and go

A roster runs three kinds of errand: it adds the observer at a seat, strikes a number off, and tells
its members a notice.  What it has to answer and whom it has to tell can be said from the errands
alone.  The additions are numbered as they come; a number is registered if its addition is among the
errands and no removal of it comes behind (`Registered`).

A roster keeps exactly the registered numbers (`Meeting.mem_members_after`), whatever removals there
are of numbers that have not been given yet or have been struck off before.  From this follow its
answers and what every observer receives (`Meeting.told_while_registered`).
-/

set_option autoImplicit false

namespace Slidecast.Progress

/-! ## Errands -/

/-- What can be asked of a roster. -/
inductive Errand where
  | add (seat : Nat)
  | remove (number : Nat)
  | notify (notice : Notice)
  deriving DecidableEq

/-- What comes back: the number of a new observer, or the seat of one that leaves. -/
inductive Answer where
  | given (number : Nat)
  | left (seat : Option Nat)
  | done
  deriving DecidableEq

/-- The number in an answer, if one is given. -/
def Answer.given? : Answer → Option Nat
  | .given number => some number
  | _ => none

/-- The seat whose observer is added, if one is. -/
def Errand.added? : Errand → Option Nat
  | .add seat => some seat
  | _ => none

/-- The seats whose observers are added, in order. -/
def additions (errands : List Errand) : List Nat := errands.filterMap Errand.added?

/-- A number has been given to the observer at a seat and has not been struck off since. -/
def Registered (past : List Errand) (number seat : Nat) : Prop :=
  ∃ front back, past = front ++ .add seat :: back ∧ (additions front).length = number ∧
    .remove number ∉ back

/-- The observer at a seat is never added while it is registered. -/
def AddedOnce (seat : Nat) (errands : List Errand) : Prop :=
  ∀ front back, errands = front ++ .add seat :: back → ∀ number, ¬ Registered front number seat

section Errands

variable {past errands : List Errand} {number other seat : Nat}

theorem additions_append (front back : List Errand) :
    additions (front ++ back) = additions front ++ additions back := List.filterMap_append

theorem additions_concat_of_none {errand : Errand} (adds : errand.added? = none) :
    additions (past ++ [errand]) = additions past := by
  rw [additions_append, additions, additions, List.filterMap_cons_none adds]
  exact List.append_nil _

theorem not_registered_nil : ¬ Registered [] number seat := by
  rintro ⟨front, back, split, _⟩
  simp at split

theorem registered_iff :
    Registered past number seat ↔ ∃ front errand back, past = front ++ errand :: back ∧
      (errand = .add seat ∧ (additions front).length = number) ∧ .remove number ∉ back := by
  constructor
  · rintro ⟨front, back, split, place, kept⟩
    exact ⟨front, _, back, split, ⟨rfl, place⟩, kept⟩
  · rintro ⟨front, _, back, split, ⟨rfl, place⟩, kept⟩
    exact ⟨front, back, split, place, kept⟩

/-- **What one errand does to registrations.** -/
theorem registered_concat (errand : Errand) :
    Registered (past ++ [errand]) number seat ↔
      (errand = .add seat ∧ (additions past).length = number) ∨
        (errand ≠ .remove number ∧ Registered past number seat) := by
  rw [registered_iff, registered_iff]
  exact exists_since_concat_iff

namespace Registered

/-- A registered number belongs to the observer that was added under it. -/
theorem added (registered : Registered past number seat) :
    (additions past)[number]? = some seat := by
  obtain ⟨front, back, rfl, rfl, _⟩ := registered
  rw [additions_append, List.getElem?_append_right le_rfl, Nat.sub_self]
  rfl

theorem lt_length (registered : Registered past number seat) : number < (additions past).length :=
  (List.getElem?_eq_some_iff.1 registered.added).1

theorem seat_unique {elsewhere : Nat} (registered : Registered past number seat)
    (again : Registered past number elsewhere) : seat = elsewhere :=
  Option.some.inj (registered.added.symm.trans again.added)

end Registered

theorem AddedOnce.of_append {front back : List Errand} (once : AddedOnce seat (front ++ back)) :
    AddedOnce seat front := by
  intro earlier later split
  exact once earlier (later ++ back) (by rw [split, List.append_assoc, List.cons_append])

/-- Who is never added while registered has one number at most. -/
theorem AddedOnce.number_unique (once : AddedOnce seat past)
    (registered : Registered past number seat) (again : Registered past other seat) :
    number = other := by
  induction past using List.reverseRecOn with
  | nil => exact absurd registered not_registered_nil
  | append_singleton past errand ih =>
      rcases (registered_concat errand).1 registered with ⟨added, place⟩ | ⟨_, earlier⟩
      · rcases (registered_concat errand).1 again with ⟨_, same⟩ | ⟨_, before⟩
        · exact place.symm.trans same
        · exact absurd before (once past [] (by rw [added]) other)
      · rcases (registered_concat errand).1 again with ⟨added, _⟩ | ⟨_, before⟩
        · exact absurd earlier (once past [] (by rw [added]) number)
        · exact ih once.of_append earlier before

end Errands

/-! ## Leaving -/

namespace Roster

variable {r : Roster} {number other seat : Nat}

theorem mem_members_remove :
    (number, seat) ∈ (r.remove other).2.members ↔ other ≠ number ∧ (number, seat) ∈ r.members := by
  simp only [remove, List.mem_filter, ne_eq, decide_not, Bool.not_eq_true', decide_eq_false_iff_not]
  exact and_comm.trans (and_congr_left' ne_comm)

/-- Whoever leaves was a member under its number. -/
theorem mem_members_of_remove (left : (r.remove number).1 = some seat) :
    (number, seat) ∈ r.members := by
  obtain ⟨⟨first, there⟩, found, rfl⟩ := Option.map_eq_some_iff.1 left
  have own := List.find?_some found
  obtain rfl : first = number := of_decide_eq_true own
  exact List.mem_of_find?_eq_some found

/-- If a number has a member, somebody leaves. -/
theorem exists_remove_eq_some (member : (number, seat) ∈ r.members) :
    ∃ there, (r.remove number).1 = some there := by
  refine Option.isSome_iff_exists.1 ?_
  rw [remove, Option.isSome_map, List.find?_isSome]
  exact ⟨_, member, decide_eq_true rfl⟩

end Roster

/-! ## Meetings -/

/-- A roster and the observers it tells. -/
structure Meeting where
  roster : Roster := {}
  audience : Audience
  deriving DecidableEq

namespace Meeting

/-- What an errand leads to. -/
def run (m : Meeting) : Errand → Answer × Meeting
  | .add seat => (.given (m.roster.add seat).1, { m with roster := (m.roster.add seat).2 })
  | .remove number =>
      (.left (m.roster.remove number).1, { m with roster := (m.roster.remove number).2 })
  | .notify notice => (.done, { m with audience := m.roster.notify notice m.audience })

/-- The meeting after a row of errands. -/
def after (m : Meeting) (errands : List Errand) : Meeting :=
  errands.foldl (fun m e => (m.run e).2) m

/-- The answers to a row of errands. -/
def answers (m : Meeting) : List Errand → List Answer
  | [] => []
  | errand :: errands => (m.run errand).1 :: (m.run errand).2.answers errands

section Runs

variable (m : Meeting) (audience : Audience) {past errands : List Errand} {number seat : Nat}

@[simp] theorem after_nil : m.after [] = m := rfl

@[simp] theorem after_cons (errand : Errand) :
    m.after (errand :: errands) = (m.run errand).2.after errands := rfl

theorem after_concat (errand : Errand) :
    m.after (past ++ [errand]) = ((m.after past).run errand).2 := List.foldl_append

theorem answers_append (front back : List Errand) :
    m.answers (front ++ back) = m.answers front ++ (m.after front).answers back := by
  induction front generalizing m with
  | nil => rfl
  | cons errand front ih =>
      rw [List.cons_append, answers, ih]
      rfl

theorem length_answers : (m.answers errands).length = errands.length := by
  induction errands generalizing m with
  | nil => rfl
  | cons errand errands ih => rw [answers, List.length_cons, ih, List.length_cons]

/-- The next number is the count of the additions. -/
theorem nextNumber_after :
    ((Meeting.mk {} audience).after past).roster.nextNumber = (additions past).length := by
  induction past using List.reverseRecOn with
  | nil => rfl
  | append_singleton past errand ih =>
      rw [after_concat, additions_append, List.length_append, ← ih]
      cases errand with
      | add seat => rfl
      | remove number => rfl
      | notify notice => rfl

/-- **A roster keeps the registered numbers**, each with the observer that was added under it. -/
theorem mem_members_after :
    (number, seat) ∈ ((Meeting.mk {} audience).after past).roster.members ↔
      Registered past number seat := by
  induction past using List.reverseRecOn with
  | nil =>
      rw [after_nil]
      exact ⟨fun member => absurd member List.not_mem_nil, fun h => absurd h not_registered_nil⟩
  | append_singleton past errand ih =>
      rw [after_concat, registered_concat, ← ih, ← nextNumber_after audience]
      cases errand with
      | add other =>
          simp only [run, Roster.add, List.mem_append, List.mem_singleton, Prod.mk.injEq,
            Errand.add.injEq, ne_eq, reduceCtorEq, not_false_eq_true, true_and]
          constructor
          · rintro (before | ⟨rfl, rfl⟩)
            · exact .inr before
            · exact .inl ⟨rfl, rfl⟩
          · rintro (⟨rfl, rfl⟩ | before)
            · exact .inr ⟨rfl, rfl⟩
            · exact .inl before
      | remove other =>
          rw [run, Roster.mem_members_remove]
          simp
      | notify notice => simp [run]

/-- No number is on the roster twice. -/
theorem nodup_numbers_after :
    (((Meeting.mk {} audience).after past).roster.members.map Prod.fst).Nodup := by
  induction past using List.reverseRecOn with
  | nil => exact List.nodup_nil
  | append_singleton past errand ih =>
      rw [after_concat]
      cases errand with
      | add seat =>
          -- The new number is the count of the additions, and all numbers before are below it.
          have fresh : (additions past).length ∉
              ((Meeting.mk {} audience).after past).roster.members.map Prod.fst := by
            intro member
            obtain ⟨⟨number, seat⟩, among, same⟩ := List.mem_map.1 member
            exact absurd same (Nat.ne_of_lt ((mem_members_after audience).1 among).lt_length)
          rw [← nextNumber_after audience] at fresh
          simpa [run, Roster.add, List.nodup_append] using
            ⟨ih, fun number seat among same => fresh (List.mem_map.2 ⟨_, among, same⟩)⟩
      | remove number => exact ih.sublist (List.filter_sublist.map Prod.fst)
      | notify notice => exact ih

/-- **A number that is struck off gives the observer that is registered under it.** -/
theorem left_eq_some_iff :
    (((Meeting.mk {} audience).after past).roster.remove number).1 = some seat ↔
      Registered past number seat := by
  rw [← mem_members_after audience]
  constructor
  · exact Roster.mem_members_of_remove
  · intro member
    obtain ⟨there, left⟩ := Roster.exists_remove_eq_some member
    have registered := (mem_members_after audience).1 (Roster.mem_members_of_remove left)
    rw [left, registered.seat_unique ((mem_members_after audience).1 member)]

/-- The numbers that are given count up from the number of earlier additions. -/
theorem given_answers :
    (((Meeting.mk {} audience).after past).answers errands).filterMap Answer.given? =
      List.range' (additions past).length (additions errands).length := by
  induction errands generalizing past with
  | nil => rfl
  | cons errand errands ih =>
      rw [answers, ← after_concat]
      have rest := @ih (past ++ [errand])
      cases errand with
      | add seat =>
          rw [additions_append, List.length_append] at rest
          change ((Meeting.mk {} audience).after past).roster.nextNumber :: _ =
            List.range' _ (_ + 1)
          rw [nextNumber_after, rest]
          rfl
      | remove number =>
          rw [additions_concat_of_none rfl] at rest
          exact rest
      | notify notice =>
          rw [additions_concat_of_none rfl] at rest
          exact rest

end Runs

end Meeting

/-! ## What is heard -/

instance (past : List Errand) (number seat : Nat) : Decidable (Registered past number seat) :=
  decidable_of_iff _ (Meeting.mem_members_after [])

/-- Under how many numbers the observer at a seat is registered. -/
def standing (past : List Errand) (seat : Nat) : Nat :=
  (List.range (additions past).length).countP (Registered past · seat)

/-- The notices that are sent while the observer at a seat is registered, each as often as it is. -/
def heard (seat : Nat) : List Errand → List Errand → List Notice
  | _, [] => []
  | past, errand :: errands =>
      (match errand with
        | .notify notice => List.replicate (standing past seat) notice
        | _ => []) ++ heard seat (past ++ [errand]) errands

section Hearing

variable {past errands : List Errand} {number seat : Nat}

/-- Who has one number only is registered once. -/
theorem standing_eq_one (registered : Registered past number seat)
    (only : ∀ other, Registered past other seat → other = number) : standing past seat = 1 := by
  have place : number ∈ List.range (additions past).length :=
    List.mem_range.2 registered.lt_length
  rw [standing, ← List.count_eq_one_of_mem List.nodup_range place, List.count]
  refine List.countP_congr fun other _ => ?_
  rw [decide_eq_true_iff, beq_iff_eq]
  constructor
  · exact only other
  · rintro rfl
    exact registered

theorem standing_eq_zero (gone : ∀ number, ¬ Registered past number seat) :
    standing past seat = 0 :=
  List.countP_eq_zero.2 fun number _ => by simpa using gone number

end Hearing

namespace Meeting

variable (audience : Audience) {past errands : List Errand} {seat : Nat}

/-- The members of a roster are as many as the numbers that are registered. -/
theorem count_members_after :
    (((Meeting.mk {} audience).after past).roster.members.map Prod.snd).count seat =
      standing past seat := by
  set members := ((Meeting.mk {} audience).after past).roster.members with isMembers
  -- the numbers of the members at the seat and the registered numbers are the same, each one once
  have same : ((members.filter (·.2 = seat)).map Prod.fst).Perm
      ((List.range (additions past).length).filter (Registered past · seat)) := by
    refine (List.perm_ext_iff_of_nodup ?_ (List.nodup_range.filter _)).2 fun number => ?_
    · exact (nodup_numbers_after audience).sublist (List.filter_sublist.map Prod.fst)
    · have registered : (number, seat) ∈ members ↔ Registered past number seat :=
        mem_members_after audience
      constructor
      · intro member
        obtain ⟨⟨own, there⟩, among, rfl⟩ := List.mem_map.1 member
        obtain ⟨there', rfl⟩ := by simpa using List.mem_filter.1 among
        have is := registered.1 there'
        exact List.mem_filter.2 ⟨List.mem_range.2 is.lt_length, decide_eq_true is⟩
      · intro place
        have is : Registered past number seat := of_decide_eq_true (List.mem_filter.1 place).2
        exact List.mem_map.2 ⟨(number, seat),
          List.mem_filter.2 ⟨registered.2 is, decide_eq_true rfl⟩, rfl⟩
  have long := same.length_eq
  rw [List.length_map, ← List.countP_eq_length_filter, ← List.countP_eq_length_filter] at long
  rw [standing, ← long, List.count, List.countP_map]
  exact List.countP_congr fun member _ => by simp

/-- **Every observer receives what it hears**, behind what it has received before. -/
theorem received_after :
    ((((Meeting.mk {} audience).after past).after errands).audience[seat]?).map Observer.received =
      (((Meeting.mk {} audience).after past).audience[seat]?).map
        fun o => o.received ++ heard seat past errands := by
  induction errands generalizing past with
  | nil => simp [heard]
  | cons errand errands ih =>
      rw [after_cons, ← after_concat, ih, after_concat]
      cases errand with
      | add other => rfl
      | remove number => rfl
      | notify notice =>
          let m := (Meeting.mk {} audience).after past
          have told := received_notify m.roster notice m.audience seat
          rw [count_members_after] at told
          calc ((m.roster.notify notice m.audience)[seat]?).map
                  (fun o => o.received ++ heard seat (past ++ [.notify notice]) errands)
              = (((m.roster.notify notice m.audience)[seat]?).map Observer.received).map
                  (· ++ heard seat (past ++ [.notify notice]) errands) := by
                rw [Option.map_map]
                rfl
            _ = (m.audience[seat]?).map
                  fun o => o.received ++ heard seat past (.notify notice :: errands) := by
                rw [told, Option.map_map]
                simp only [heard, ← List.append_assoc]
                rfl

/-- The answer to an errand depends on what came before it only. -/
theorem answers_at (m : Meeting) (front back : List Errand) (errand : Errand) :
    (m.answers (front ++ errand :: back))[front.length]? = some ((m.after front).run errand).1 := by
  rw [answers_append, List.getElem?_append_right (Nat.le_of_eq m.length_answers), length_answers,
    Nat.sub_self]
  rfl

/-- **Numbers, leaving and notices.**  For every row of errands to a new roster, the numbers that
are given count up from zero and no removal brings one back; a removal gives an observer exactly if
the number is registered, and then the one that was added under it; and every observer receives, in
order, the notices that are sent while it is registered, each as often as it is registered then.
That is once, for whoever is never added while it is registered.

All numbers are below the count of additions, so that a counter of 64 bits is large enough for fewer
than 2 ^ 64 of them. -/
theorem told_while_registered (audience : Audience) (errands : List Errand) :
    let m : Meeting := ⟨{}, audience⟩
    (m.answers errands).filterMap Answer.given? = List.range (additions errands).length ∧
      (∀ front seat back, errands = front ++ .add seat :: back →
        (m.answers errands)[front.length]? = some (.given (additions front).length)) ∧
      (∀ front number back, errands = front ++ .remove number :: back →
        ∃ leaver, (m.answers errands)[front.length]? = some (.left leaver) ∧
          ∀ seat, leaver = some seat ↔ Registered front number seat) ∧
      ∀ seat,
        ((m.after errands).audience[seat]?).map Observer.received =
            (audience[seat]?).map (fun o => o.received ++ heard seat [] errands) ∧
          (AddedOnce seat errands → ∀ front back, errands = front ++ back →
            standing front seat ≤ 1 ∧
              (standing front seat = 1 ↔ ∃ number, Registered front number seat)) := by
  intro m
  refine ⟨?_, ?_, ?_, ?_⟩
  · rw [List.range_eq_range']
    exact @given_answers audience [] errands
  · rintro front seat back rfl
    rw [answers_at, ← nextNumber_after audience]
    rfl
  · rintro front number back rfl
    exact ⟨_, answers_at m front back (.remove number), fun _ => left_eq_some_iff audience⟩
  · intro seat
    refine ⟨@received_after audience [] errands seat, ?_⟩
    rintro once front back rfl
    by_cases present : ∃ number, Registered front number seat
    · obtain ⟨number, registered⟩ := present
      have one := standing_eq_one registered fun other again =>
        once.of_append.number_unique again registered
      exact ⟨one.le, fun _ => ⟨number, registered⟩, fun _ => one⟩
    · have zero := standing_eq_zero (not_exists.1 present)
      exact ⟨zero.le.trans zero_le_one, fun one => by omega, fun there => absurd there present⟩

/-- An observer leaves and comes back: it has a new number and has missed the second notice. -/
example (n : Notice) :
    let m : Meeting := ⟨{}, [⟨.memory, []⟩]⟩
    let errands := [Errand.add 0, .notify n, .remove 0, .notify n, .remove 0, .add 0, .notify n]
    m.answers errands =
        [.given 0, .done, .left (some 0), .done, .left none, .given 1, .done] ∧
      (m.after errands).audience = [⟨.memory, [n, n]⟩] := by
  exact ⟨rfl, rfl⟩

end Meeting

end Slidecast.Progress
