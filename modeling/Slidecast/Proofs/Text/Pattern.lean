import Mathlib.Data.List.Basic

/-!
# Patterns

A pattern fits the front of a row of characters in several ways, and they have an order: what the
first alternative allows comes before what the second one allows, a longer row of one kind before a
shorter one, and one more repetition before one less.  A pattern is searched for from the left: the
first place where it fits counts, and there the first way (`Pattern.search?`).

Of a pattern with another one behind it, the first way is the first way of the front that the rest
can follow (`first?_both`).  If the rest fits everywhere, nothing has to be tried again
(`first?_both_of_fits`).
-/

set_option autoImplicit false

namespace Slidecast.Text

/-- What is searched for. -/
inductive Pattern where
  /-- These characters. -/
  | word (cs : List Char)
  /-- One or more characters of a kind, rather more than fewer. -/
  | run (kind : Char → Bool)
  /-- One pattern, and another one behind it. -/
  | both (first second : Pattern)
  /-- One of two patterns, rather the first one. -/
  | either (first second : Pattern)
  /-- A pattern at most so many times, rather more than fewer. -/
  | upTo (most : Nat) (body : Pattern)
  /-- A pattern; what it takes is asked for. -/
  | group (body : Pattern)

/-- One way in which a pattern fits: what it takes, what the group in it takes, and what is left. -/
structure Way where
  taken : List Char
  group : Option (List Char)
  rest : List Char

/-- Nothing is taken. -/
def Way.nothing (cs : List Char) : Way := ⟨[], none, cs⟩

/-- One way behind another. -/
def Way.andThen (way next : Way) : Way := ⟨way.taken ++ next.taken, next.group.or way.group, next.rest⟩

/-- The ways to take characters of one kind: what is taken and what is left, the longest first. -/
def runs (kind : Char → Bool) : List Char → List (List Char × List Char)
  | [] => []
  | c :: cs =>
      if kind c then (runs kind cs).map (fun (taken, rest) => (c :: taken, rest)) ++ [([c], cs)]
      else []

/-- The ways to take a step again and again, at most so many times. -/
def repeated (step : List Char → List Way) : Nat → List Char → List Way
  | 0, cs => [.nothing cs]
  | more + 1, cs =>
      (step cs).flatMap (fun way => (repeated step more way.rest).map way.andThen) ++ [.nothing cs]

namespace Pattern

/-- The ways in which a pattern fits the front of a row of characters, in their order. -/
def ways : Pattern → List Char → List Way
  | .word w, cs => if w.isPrefixOf cs then [⟨w, none, cs.drop w.length⟩] else []
  | .run kind, cs => (runs kind cs).map fun (taken, rest) => ⟨taken, none, rest⟩
  | .both first second, cs =>
      (first.ways cs).flatMap fun way => (second.ways way.rest).map way.andThen
  | .either first second, cs => first.ways cs ++ second.ways cs
  | .upTo most body, cs => repeated body.ways most cs
  | .group body, cs => (body.ways cs).map fun way => { way with group := some way.taken }

/-- The first way in which a pattern fits the front. -/
def first? (p : Pattern) (cs : List Char) : Option Way := (p.ways cs).head?

/-- The first way in which a pattern fits at the first place where it fits. -/
def search? (p : Pattern) : List Char → Option Way
  | [] => p.first? []
  | c :: cs => (p.first? (c :: cs)).or (p.search? cs)

/-! ## First ways -/

theorem head?_runs (kind : Char → Bool) (cs : List Char) :
    (runs kind cs).head? =
      if cs.takeWhile kind = [] then none else some (cs.takeWhile kind, cs.dropWhile kind) := by
  induction cs with
  | nil => rfl
  | cons c cs ih =>
      rw [runs]
      by_cases here : kind c = true
      · rw [if_pos here, List.head?_append, List.head?_map, ih]
        by_cases alone : cs.takeWhile kind = []
        · have whole : cs.dropWhile kind = cs := by
            have split := List.takeWhile_append_dropWhile (p := kind) (l := cs)
            rwa [alone, List.nil_append] at split
          simp [here, alone, whole]
        · simp [here, alone]
      · simp [here]

theorem first?_run (kind : Char → Bool) (cs : List Char) :
    (run kind).first? cs =
      if cs.takeWhile kind = [] then none
      else some ⟨cs.takeWhile kind, none, cs.dropWhile kind⟩ := by
  rw [first?, ways, List.head?_map, head?_runs]
  split <;> rfl

/-- The first way of the front that the rest can follow. -/
theorem first?_both (p q : Pattern) (cs : List Char) :
    (both p q).first? cs =
      (p.ways cs).findSome? fun way => (q.first? way.rest).map way.andThen := by
  rw [first?, ways, List.head?_flatMap]
  simp only [List.head?_map, first?]

/-- If the rest fits everywhere, it follows the first way of the front. -/
theorem first?_both_of_fits {p q : Pattern} (fits : ∀ cs, (q.first? cs).isSome = true)
    (cs : List Char) :
    (both p q).first? cs =
      (p.first? cs).bind fun way => (q.first? way.rest).map way.andThen := by
  rw [first?_both, first?]
  cases p.ways cs with
  | nil => rfl
  | cons way ways =>
      obtain ⟨next, found⟩ := Option.isSome_iff_exists.1 (fits way.rest)
      simp [found]

/-- A pattern is repeated once more if it fits. -/
theorem first?_upTo_succ (p : Pattern) (most : Nat) (cs : List Char) :
    (upTo (most + 1) p).first? cs =
      ((both p (upTo most p)).first? cs).or (some (.nothing cs)) := by
  rw [first?, ways, repeated, List.head?_append]
  rfl

/-- A repetition fits everywhere, since it may be left out. -/
theorem isSome_first?_upTo (p : Pattern) (most : Nat) (cs : List Char) :
    ((upTo most p).first? cs).isSome = true := by
  cases most with
  | zero => rfl
  | succ most => simp [first?_upTo_succ]

end Pattern

end Slidecast.Text
