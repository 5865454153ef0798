import Combinatory.Basis
import Mathlib.Logic.Relation

/-!
# Combinatory logic

Expressions are atoms and applications. A redex is one of the standard combinators with its
arguments; `HeadContracts` contracts the redex at the head, `Rewrites` one anywhere.

Main statement, `headTerminates_of_normalizes`: an expression that can be brought to a normal form in
any way at all has a terminating head reduction.

1. Contracting any redexes that are there, all at once, can be done by contracting at the head first
   and then nowhere at the head (`Par.factor`).
2. What is not done at the head leaves the head redex in place (`Inner.simulates`).
3. Hence termination at the head is passed backwards (`HeadTerminates.of_par`), from the normal form
   on.
-/

namespace Combinatory

/-- An expression of combinatory logic. -/
inductive Expr where
  | atom (name : Text)
  | app (f x : Expr)
  deriving DecidableEq

namespace Expr

variable {f g s t u v x y z x' y' z' : Expr}

/-! ## Contraction -/

/-- The rules of the standard combinators. -/
inductive Contracts : Expr → Expr → Prop
  | s (x y z : Expr) :
      Contracts (.app (.app (.app (.atom Combinator.s.name) x) y) z) (.app (.app x z) (.app y z))
  | k (x y : Expr) : Contracts (.app (.app (.atom Combinator.k.name) x) y) x
  | i (x : Expr) : Contracts (.app (.atom Combinator.i.name) x) x
  | b (x y z : Expr) :
      Contracts (.app (.app (.app (.atom Combinator.b.name) x) y) z) (.app x (.app y z))
  | c (x y z : Expr) :
      Contracts (.app (.app (.app (.atom Combinator.c.name) x) y) z) (.app (.app x z) y)

/-- Contraction of the redex at the head. -/
inductive HeadContracts : Expr → Expr → Prop
  | root {t u : Expr} (h : Contracts t u) : HeadContracts t u
  | left {f g x : Expr} (h : HeadContracts f g) : HeadContracts (.app f x) (.app g x)

/-- Contraction of a redex anywhere. -/
inductive Rewrites : Expr → Expr → Prop
  | root {t u : Expr} (h : Contracts t u) : Rewrites t u
  | left {f g x : Expr} (h : Rewrites f g) : Rewrites (.app f x) (.app g x)
  | right {f x y : Expr} (h : Rewrites x y) : Rewrites (.app f x) (.app f y)

/-- There is no redex at the head. -/
def HeadNormal (t : Expr) : Prop := ∀ u, ¬ HeadContracts t u

/-- Contractions, made anywhere, lead to an expression without redex. -/
def Normalizes (t : Expr) : Prop :=
  ∃ n, Relation.ReflTransGen Rewrites t n ∧ ∀ u, ¬ Rewrites n u

/-- Contracting at the head comes to an end. -/
def HeadTerminates (t : Expr) : Prop := Acc (fun u t => HeadContracts t u) t

/-! ## Heads and their arguments -/

/-- The atom at the head. -/
def head : Expr → Text
  | atom a => a
  | .app f _ => f.head

def argCount : Expr → Nat
  | .atom _ => 0
  | .app f _ => f.argCount + 1

/-- The expression applied to arguments, from the left. -/
def apply (f : Expr) (xs : List Expr) : Expr := xs.foldl .app f

@[simp] theorem apply_nil (f : Expr) : f.apply [] = f := rfl

@[simp] theorem apply_cons (f x : Expr) (xs : List Expr) : f.apply (x :: xs) = (app f x).apply xs :=
  rfl

theorem apply_append (f : Expr) (xs ys : List Expr) : f.apply (xs ++ ys) = (f.apply xs).apply ys := by
  unfold apply
  rw [List.foldl_append]

/-- Expressions applied from left to right; without any there is an atom without name. -/
def applyAll : List Expr → Expr
  | [] => .atom []
  | x :: xs => x.apply xs

theorem applyAll_append {xs : List Expr} (hxs : xs ≠ []) (ys : List Expr) :
    applyAll (xs ++ ys) = (applyAll xs).apply ys := by
  obtain ⟨x, xs, rfl⟩ := List.exists_cons_of_ne_nil hxs
  exact x.apply_append xs ys

@[simp] theorem head_apply (f : Expr) (xs : List Expr) : (f.apply xs).head = f.head := by
  induction xs generalizing f with
  | nil => rfl
  | cons x xs ih => rw [apply_cons, ih, head]

@[simp] theorem argCount_apply (f : Expr) (xs : List Expr) :
    (f.apply xs).argCount = f.argCount + xs.length := by
  induction xs generalizing f with
  | nil => rfl
  | cons x xs ih =>
    rw [apply_cons, ih, argCount, List.length_cons]
    omega

theorem Contracts.exists_combinator (h : Contracts t u) :
    ∃ d ∈ Basis.standard.combinators, t.head = d.name ∧ t.argCount = d.arity := by
  cases h with
  | s => exact ⟨.s, by decide, rfl, rfl⟩
  | k => exact ⟨.k, by decide, rfl, rfl⟩
  | i => exact ⟨.i, by decide, rfl, rfl⟩
  | b => exact ⟨.b, by decide, rfl, rfl⟩
  | c => exact ⟨.c, by decide, rfl, rfl⟩

theorem HeadContracts.exists_combinator (h : HeadContracts t u) :
    ∃ d ∈ Basis.standard.combinators, t.head = d.name ∧ d.arity ≤ t.argCount := by
  induction h with
  | root h =>
    obtain ⟨d, hd, hname, hcount⟩ := h.exists_combinator
    exact ⟨d, hd, hname, Nat.le_of_eq hcount.symm⟩
  | left _ ih =>
    obtain ⟨d, hd, hname, hcount⟩ := ih
    exact ⟨d, hd, hname, Nat.le_succ_of_le hcount⟩

theorem headNormal_of_forall
    (h : ∀ d ∈ Basis.standard.combinators, t.head = d.name → t.argCount < d.arity) :
    HeadNormal t := by
  intro u hu
  obtain ⟨d, hd, hname, hcount⟩ := hu.exists_combinator
  exact absurd (h d hd hname) (Nat.not_lt.2 hcount)

/-! ## Head reduction is deterministic -/

theorem Contracts.unique (hu : Contracts t u) (hv : Contracts t v) : u = v := by
  cases hu <;> cases hv <;> rfl

theorem eq_of_name_eq : ∀ d ∈ Basis.standard.combinators, ∀ e ∈ Basis.standard.combinators,
    d.name = e.name → d = e := by decide

theorem Contracts.headNormal_left (h : Contracts (.app f x) u) : HeadNormal f := by
  obtain ⟨d, hd, hname, hcount⟩ := h.exists_combinator
  refine headNormal_of_forall fun e he hname' => ?_
  obtain rfl := eq_of_name_eq d hd e he (hname.symm.trans hname')
  exact Nat.lt_of_succ_le (Nat.le_of_eq hcount)

theorem HeadContracts.unique (hu : HeadContracts t u) (hv : HeadContracts t v) : u = v := by
  induction hu generalizing v with
  | root h =>
    cases hv with
    | root h' => exact h.unique h'
    | left h' => exact absurd h' (h.headNormal_left _)
  | left h ih =>
    cases hv with
    | root h' => exact absurd h (h'.headNormal_left _)
    | left h' => rw [ih h']

theorem HeadTerminates.of_headContracts (h : HeadContracts t u) (hu : HeadTerminates u) :
    HeadTerminates t := by
  refine Acc.intro t fun v hv => ?_
  rw [← h.unique hv]
  exact hu

theorem HeadTerminates.of_reflTransGen (h : Relation.ReflTransGen HeadContracts t u)
    (hu : HeadTerminates u) : HeadTerminates t := by
  induction h using Relation.ReflTransGen.head_induction_on with
  | refl => exact hu
  | head h _ ih => exact .of_headContracts h ih

theorem HeadTerminates.transGen (h : HeadTerminates t) :
    Acc (fun u t => Relation.TransGen HeadContracts t u) t :=
  Subrelation.accessible (fun h => Relation.transGen_swap.2 h) (Acc.transGen h)

/-! ## Contraction under arguments -/

theorem HeadContracts.apply (h : HeadContracts f g) (xs : List Expr) :
    HeadContracts (f.apply xs) (g.apply xs) := by
  induction xs generalizing f g with
  | nil => exact h
  | cons x xs ih => exact ih h.left

theorem transGen_apply (h : Relation.TransGen HeadContracts f g) (xs : List Expr) :
    Relation.TransGen HeadContracts (f.apply xs) (g.apply xs) :=
  h.lift (fun f => f.apply xs) fun _ _ h => h.apply xs

theorem reflTransGen_app (h : Relation.ReflTransGen HeadContracts f g) (x : Expr) :
    Relation.ReflTransGen HeadContracts (.app f x) (.app g x) :=
  h.lift (fun f => app f x) fun _ _ h => h.left

/-! ## Parallel contraction -/

/-- Contraction of any redexes that are there, all at once. -/
inductive Par : Expr → Expr → Prop
  | atom (a : Text) : Par (.atom a) (.atom a)
  | app {f g x y : Expr} (hf : Par f g) (hx : Par x y) : Par (.app f x) (.app g y)
  | s {x x' y y' z z' : Expr} (hx : Par x x') (hy : Par y y') (hz : Par z z') :
      Par (.app (.app (.app (.atom Combinator.s.name) x) y) z) (.app (.app x' z') (.app y' z'))
  | k {x x' : Expr} (hx : Par x x') (y : Expr) :
      Par (.app (.app (.atom Combinator.k.name) x) y) x'
  | i {x x' : Expr} (hx : Par x x') : Par (.app (.atom Combinator.i.name) x) x'
  | b {x x' y y' z z' : Expr} (hx : Par x x') (hy : Par y y') (hz : Par z z') :
      Par (.app (.app (.app (.atom Combinator.b.name) x) y) z) (.app x' (.app y' z'))
  | c {x x' y y' z z' : Expr} (hx : Par x x') (hy : Par y y') (hz : Par z z') :
      Par (.app (.app (.app (.atom Combinator.c.name) x) y) z) (.app (.app x' z') y')

/-- Parallel contraction inside the arguments of the head alone. -/
inductive Inner : Expr → Expr → Prop
  | atom (a : Text) : Inner (.atom a) (.atom a)
  | app {f g x y : Expr} (hf : Inner f g) (hx : Par x y) : Inner (.app f x) (.app g y)

theorem Par.refl (t : Expr) : Par t t := by
  induction t with
  | atom a => exact .atom a
  | app f x ihf ihx => exact .app ihf ihx

theorem Contracts.par (h : Contracts t u) : Par t u := by
  cases h with
  | s x y z => exact .s (.refl x) (.refl y) (.refl z)
  | k _ y => exact .k (.refl u) y
  | i => exact .i (.refl u)
  | b x y z => exact .b (.refl x) (.refl y) (.refl z)
  | c x y z => exact .c (.refl x) (.refl y) (.refl z)

theorem Rewrites.par (h : Rewrites t u) : Par t u := by
  induction h with
  | root h => exact h.par
  | left _ ih => exact .app ih (.refl _)
  | right _ ih => exact .app (.refl _) ih

/-- **The head comes first**: what is contracted at once can be contracted at the head, as far as it
goes, and then inside the arguments. -/
theorem Par.factor (h : Par t u) : ∃ s, Relation.ReflTransGen HeadContracts t s ∧ Inner s u := by
  induction h with
  | atom a => exact ⟨_, .refl, .atom a⟩
  | @app f g x y _ hx ihf _ =>
    obtain ⟨p, hp, hi⟩ := ihf
    exact ⟨.app p x, reflTransGen_app hp x, .app hi hx⟩
  | @s x _ y _ z _ _ hy hz ihx =>
    obtain ⟨p, hp, hi⟩ := ihx
    refine ⟨.app (.app p z) (.app y z), .head (.root (.s x y z)) ?_, .app (.app hi hz) (.app hy hz)⟩
    exact reflTransGen_app (reflTransGen_app hp z) (.app y z)
  | @k x _ _ y ihx =>
    obtain ⟨p, hp, hi⟩ := ihx
    exact ⟨p, .head (.root (.k x y)) hp, hi⟩
  | @i x _ _ ihx =>
    obtain ⟨p, hp, hi⟩ := ihx
    exact ⟨p, .head (.root (.i x)) hp, hi⟩
  | @b x _ y _ z _ _ hy hz ihx =>
    obtain ⟨p, hp, hi⟩ := ihx
    refine ⟨.app p (.app y z), .head (.root (.b x y z)) ?_, .app hi (.app hy hz)⟩
    exact reflTransGen_app hp (.app y z)
  | @c x _ y _ z _ _ hy hz ihx =>
    obtain ⟨p, hp, hi⟩ := ihx
    refine ⟨.app (.app p z) y, .head (.root (.c x y z)) ?_, .app (.app hi hz) hy⟩
    exact reflTransGen_app (reflTransGen_app hp z) y

/-- Contraction inside the arguments leaves the head redex in place. -/
theorem Inner.simulates (h : Inner s u) (hs : HeadContracts s t) :
    ∃ v, HeadContracts u v ∧ Par t v := by
  induction hs generalizing u with
  | root hs =>
    -- The spine of the redex is that of `u`, with its arguments contracted.
    cases hs with
    | s | b | c =>
      obtain _ | ⟨_ | ⟨_ | ⟨_ | _, hx⟩, hy⟩, hz⟩ := h
      first
        | exact ⟨_, .root (.s _ _ _), .app (.app hx hz) (.app hy hz)⟩
        | exact ⟨_, .root (.b _ _ _), .app hx (.app hy hz)⟩
        | exact ⟨_, .root (.c _ _ _), .app (.app hx hz) hy⟩
    | k =>
      obtain _ | ⟨_ | ⟨_ | _, hx⟩, hy⟩ := h
      exact ⟨_, .root (.k _ _), hx⟩
    | i =>
      obtain _ | ⟨_ | _, hx⟩ := h
      exact ⟨_, .root (.i _), hx⟩
  | left _ ih =>
    obtain _ | ⟨hf, hx⟩ := h
    obtain ⟨v, hv, hp⟩ := ih hf
    exact ⟨_, hv.left, .app hp hx⟩

/-! ## Head normalization -/

theorem HeadTerminates.of_par (hu : HeadTerminates u) (h : Par t u) : HeadTerminates t := by
  induction hu generalizing t with
  | intro u _ ih =>
    obtain ⟨s, hts, hsu⟩ := h.factor
    have hs : HeadTerminates s := by
      refine Acc.intro s fun s' hs' => ?_
      obtain ⟨u', hu', hp⟩ := hsu.simulates hs'
      exact ih u' hu' hp
    exact .of_reflTransGen hts hs

/-- **Head reduction finds an end whenever there is a normal form.** -/
theorem headTerminates_of_normalizes (h : Normalizes t) : HeadTerminates t := by
  obtain ⟨n, hn, hnormal⟩ := h
  induction hn using Relation.ReflTransGen.head_induction_on with
  | refl =>
    refine Acc.intro n fun u hu => absurd ?_ (hnormal u)
    induction hu with
    | root h => exact .root h
    | left _ ih => exact .left (ih fun u hu => hnormal _ (.left hu))
  | head h _ ih => exact ih.of_par h.par

end Expr

end Combinatory
