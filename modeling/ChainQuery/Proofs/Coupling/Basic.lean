import ChainQuery.Compile.Projection
import ChainQuery.Proofs.Expr.Strings
import ChainQuery.Proofs.Related
import ChainQuery.Proofs.Schema.Within
/-!
# Coupled runs

Many properties of the compiler compare two runs: on a query and on one that differs from it in
something that no statement shows, against a schema and a larger one, or in scopes of which one has more
records.  A coupling (`Coupling`) says how the two runs may differ, and whether the success of the second
says anything of the first.

Two computations agree if the second has a value where the first has one, and the values are related
(`Coupling.Agrees`); scalars are coupled if they are built alike (`Scalar.Coupled`).  Texts of rows and
records do not matter, since none of them reaches a statement, and neither do those of failures.

Nothing is said in these modules of what the two queries are: for every way to read, gather or select
there is one rule, over coupled parts, and a coupling only has to say which parts it starts from.
-/

namespace Except

variable {ε α β γ δ : Type}

/-- **Two outcomes agree**: where the first has a value, the second has a related one.  Under `converse`
the first has a value where the second has one. -/
structure Agrees (converse : Prop) (R : α → β → Prop) (x : Except ε α) (y : Except ε β) : Prop where
  forth : ∀ a, x = .ok a → ∃ b, y = .ok b ∧ R a b
  back : converse → ∀ b, y = .ok b → ∃ a, x = .ok a

namespace Agrees

variable {converse : Prop} {R : α → β → Prop} {S : γ → δ → Prop} {x : Except ε α} {y : Except ε β}

theorem ok {a : α} {b : β} (h : R a b) : Agrees converse R (.ok a : Except ε α) (.ok b) := by
  refine ⟨?_, fun _ _ _ => ⟨a, rfl⟩⟩
  rintro _ ⟨⟩
  exact ⟨b, rfl, h⟩

theorem error (e e' : ε) : Agrees converse R (.error e) (.error e') :=
  ⟨by rintro _ ⟨⟩, by rintro _ _ ⟨⟩⟩

/-- The values are related. -/
theorem related (h : Agrees converse R x y) {a : α} {b : β} (hx : x = .ok a) (hy : y = .ok b) :
    R a b := by
  obtain ⟨b', hb, hab⟩ := h.forth a hx
  rwa [Except.ok.inj (hy.symm.trans hb)]

/-- **A sequence agrees with another if its parts do**: the second parts are only compared where both
first parts have a value. -/
theorem bind {f : α → Except ε γ} {g : β → Except ε δ} (hxy : Agrees converse R x y)
    (hfg : ∀ a b, x = .ok a → y = .ok b → R a b → Agrees converse S (f a) (g b)) :
    Agrees converse S (x >>= f) (y >>= g) := by
  refine ⟨fun c hc => ?_, fun hconverse d hd => ?_⟩
  · obtain ⟨a, ha, hc⟩ := bind_eq_ok.mp hc
    obtain ⟨b, hb, hab⟩ := hxy.forth a ha
    obtain ⟨d, hd, hcd⟩ := (hfg a b ha hb hab).forth c hc
    exact ⟨d, bind_eq_ok.mpr ⟨b, hb, hd⟩, hcd⟩
  · obtain ⟨b, hb, hd⟩ := bind_eq_ok.mp hd
    obtain ⟨a, ha⟩ := hxy.back hconverse b hb
    obtain ⟨c, hc⟩ := (hfg a b ha hb (hxy.related ha hb)).back hconverse d hd
    exact ⟨c, bind_eq_ok.mpr ⟨a, ha, hc⟩⟩

/-- An outcome agrees with itself. -/
theorem refl (x : Except ε α) : Agrees converse Eq x x :=
  ⟨fun a ha => ⟨a, ha, rfl⟩, fun _ a ha => ⟨a, ha⟩⟩

/-- Where success carries over both ways, both outcomes have a value or none does. -/
theorem isOk_eq (h : Agrees converse R x y) (hconverse : converse) : x.isOk = y.isOk := by
  cases x with
  | ok a =>
    obtain ⟨b, rfl, _⟩ := h.forth a rfl
    rfl
  | error e =>
    cases y with
    | error e' => rfl
    | ok b =>
      obtain ⟨_, ⟨⟩⟩ := h.back hconverse b rfl

end Agrees

end Except

namespace ChainQuery

variable {α β γ δ : Type}

/-! ## 1. Couplings -/

/-- **How two runs of the compiler may differ.** -/
structure Coupling where
  env : Env
  /-- The environment of the second run. -/
  env' : Env
  /-- What the first run looks up, the second finds. -/
  grows : env.Within env'
  /-- What becomes of the strings of constants in the second run. -/
  rename : String → String
  injective : rename.Injective
  /-- The aggregates of the first run, each with the one that takes its place in the second. -/
  Aggregates : Correlated → Correlated → Prop
  /-- Two aggregates are equal in both runs or in none. -/
  beq_eq : ∀ {c c' d d'}, Aggregates c c' → Aggregates d d' → (c == d) = (c' == d')
  /-- The members of records that one run may build and the other not. -/
  hidden : Ty × String → Bool
  /-- The columns that may be read. -/
  Reads : ColumnToken → Prop
  /-- None of them asks for a hidden member. -/
  shown : ∀ ⦃token owner⦄, Reads token → token.owner? = some owner →
    hidden (owner, token.member) = false
  /-- Whether the first run has a value where the second has one. -/
  converse : Prop
  /-- What the second run looks up, the first finds then. -/
  shrinks : converse → env'.Within env

/-- Runs that differ in their aggregates only: with the same strings and in the same environment, on all
columns.  Nothing is said of the first run where only the second succeeds. -/
def Coupling.ofAggregates (env : Env) (Aggregates : Correlated → Correlated → Prop)
    (beq_eq : ∀ {c c' d d'}, Aggregates c c' → Aggregates d d' → (c == d) = (c' == d')) :
    Coupling where
  env := env
  env' := env
  grows := .refl env
  rename := id
  injective := Function.injective_id
  Aggregates := Aggregates
  beq_eq := beq_eq
  hidden _ := false
  Reads _ := True
  shown _ _ _ _ := rfl
  converse := False
  shrinks := False.elim

/-- A column that asks for no hidden member. -/
def Coupling.Shows (C : Coupling) (token : ColumnToken) : Prop :=
  ∀ owner, token.owner? = some owner → C.hidden (owner, token.member) = false

theorem Coupling.shows_of_reads (C : Coupling) {token : ColumnToken} (h : C.Reads token) :
    C.Shows token :=
  fun _ howner => C.shown h howner

variable {C : Coupling}

/-- Two computations agree if their outcomes do, as the coupling has it. -/
def Coupling.Agrees (C : Coupling) (R : α → β → Prop) (x : Traced α) (y : Traced β) : Prop :=
  x.outcome.Agrees C.converse R y.outcome

namespace Coupling.Agrees

variable {R : α → β → Prop} {S : γ → δ → Prop}

theorem pure {a : α} {b : β} (h : R a b) : C.Agrees R (pure a) (pure b) := Except.Agrees.ok h

theorem throw (e e' : Error) : C.Agrees R (throw e) (throw e') := Except.Agrees.error e e'

theorem bind {x : Traced α} {y : Traced β} {f : α → Traced γ} {g : β → Traced δ}
    (hxy : C.Agrees R x y)
    (hfg : ∀ a b, x.outcome = .ok a → y.outcome = .ok b → R a b → C.Agrees S (f a) (g b)) :
    C.Agrees S (x >>= f) (y >>= g) := by
  unfold Agrees
  rw [Traced.outcome_bind, Traced.outcome_bind]
  exact Except.Agrees.bind hxy hfg

/-- A computation agrees with itself. -/
theorem same (x : Traced α) : C.Agrees Eq x x := Except.Agrees.refl x.outcome

/-- **Both runs look up the same.** -/
theorem lookup (f : Schema → Except Error α)
    (hf : ∀ {s s' : Schema}, s.Within s' → ∀ a, f s = .ok a → f s' = .ok a) :
    C.Agrees Eq (liftM (f C.env.schema)) (liftM (f C.env'.schema)) :=
  ⟨fun a ha => ⟨a, hf C.grows.schema a ha, rfl⟩,
    fun hconverse a ha => ⟨a, hf (C.shrinks hconverse).schema a ha⟩⟩

/-- Where success only carries over to the second computation. -/
theorem of_exists (hconverse : ¬C.converse) {x : Traced α} {y : Traced β}
    (h : ∀ a, x.outcome = .ok a → ∃ b, y.outcome = .ok b ∧ R a b) : C.Agrees R x y :=
  ⟨h, fun hc => absurd hc hconverse⟩

/-- **Traversals agree if they do element by element.** -/
theorem mapM {f : α → Traced γ} {g : β → Traced δ} {φ : γ → δ} {xs : List α} {ys : List β}
    (h : List.Forall₂ (fun x y => C.Agrees (fun a b => b = φ a) (f x) (g y)) xs ys) :
    C.Agrees (fun as bs => bs = as.map φ) (xs.mapM f) (ys.mapM g) := by
  induction h with
  | nil => exact pure rfl
  | cons hx _ ih =>
    rw [List.mapM_cons, List.mapM_cons]
    refine hx.bind ?_
    rintro a _ _ _ rfl
    refine ih.bind ?_
    rintro as _ _ _ rfl
    exact pure rfl

end Coupling.Agrees

/-! ## 2. Coupled scalars -/

mutual
/-- **Scalars that are built alike** over columns that may be read and over coupled aggregates, with
the strings of the second renamed. -/
inductive Scalar.Coupled (C : Coupling) : Scalar → Scalar → Prop
  | column {token : ColumnToken} (h : C.Reads token) : Coupled C (.column token) (.column token)
  | value (v : Literal) : Coupled C (.value v) (.value (v.mapStrings C.rename))
  | null : Coupled C .null .null
  | binary (op : BinaryOp) {l l' r r' : Scalar} (hl : Coupled C l l') (hr : Coupled C r r') :
      Coupled C (.binary op l r) (.binary op l' r')
  | not {x y : Scalar} (h : Coupled C x y) : Coupled C (.not x) (.not y)
  | negate {x y : Scalar} (h : Coupled C x y) : Coupled C (.negate x) (.negate y)
  | function (f : Sql.Function) {xs ys : List Scalar} (h : ListCoupled C xs ys) :
      Coupled C (.function f xs) (.function f ys)
  | like (wildcards : Sql.Wildcards) {x x' p p' : Scalar} (hx : Coupled C x x')
      (hp : Coupled C p p') : Coupled C (.like x p wildcards) (.like x' p' wildcards)
  | case {t t' x x' y y' : Scalar} (ht : Coupled C t t') (hx : Coupled C x x')
      (hy : Coupled C y y') : Coupled C (.case t x y) (.case t' x' y')
  | subquery {c c' : Correlated} (h : C.Aggregates c c') : Coupled C (.subquery c) (.subquery c')
  | composite (s t : String) : Coupled C (.composite s) (.composite t)

/-- Lists of coupled scalars. -/
inductive Scalar.ListCoupled (C : Coupling) : List Scalar → List Scalar → Prop
  | nil : ListCoupled C [] []
  | cons {x y : Scalar} {xs ys : List Scalar} (h : Coupled C x y) (hs : ListCoupled C xs ys) :
      ListCoupled C (x :: xs) (y :: ys)
end

namespace Scalar

mutual
/-- Whether a scalar holds no row and no record. -/
def Plain : Scalar → Prop
  | .column _ | .value _ | .null | .subquery _ => True
  | .binary _ l r => l.Plain ∧ r.Plain
  | .not x | .negate x => x.Plain
  | .function _ args => ListPlain args
  | .like x p _ => x.Plain ∧ p.Plain
  | .case t x y => t.Plain ∧ x.Plain ∧ y.Plain
  | .composite _ => False

/-- Lists of such scalars. -/
def ListPlain : List Scalar → Prop
  | [] => True
  | x :: xs => x.Plain ∧ ListPlain xs
end

theorem Coupled.isNull_eq {x y : Scalar} (h : x.Coupled C y) : x.isNull = y.isNull := by
  cases h <;> rfl

mutual
/-- **Coupled scalars are equal together**, if the first holds no row and no record. -/
theorem Coupled.beq_eq : ∀ {x y x' y' : Scalar}, x.Coupled C y → x'.Coupled C y' → x.Plain →
    x.beq x' = y.beq y'
  | _, _, _, _, .column _, h', _ => by cases h' <;> rfl
  | _, _, _, _, .value v, h', _ => by
    cases h' with
    | value w => exact (Literal.beq_mapStrings C.injective v w).symm
    | _ => rfl
  | _, _, _, _, .null, h', _ => by cases h' <;> rfl
  | _, _, _, _, .binary op hl hr, h', hplain => by
    cases h' with
    | binary op' hl' hr' => simp only [beq, hl.beq_eq hl' hplain.1, hr.beq_eq hr' hplain.2]
    | _ => rfl
  | _, _, _, _, .not h, h', hplain => by
    cases h' with
    | not h' => exact h.beq_eq h' hplain
    | _ => rfl
  | _, _, _, _, .negate h, h', hplain => by
    cases h' with
    | negate h' => exact h.beq_eq h' hplain
    | _ => rfl
  | _, _, _, _, .function f h, h', hplain => by
    cases h' with
    | function f' h' => simp only [beq, h.beqList_eq h' hplain]
    | _ => rfl
  | _, _, _, _, .like w hx hp, h', hplain => by
    cases h' with
    | like w' hx' hp' => simp only [beq, hx.beq_eq hx' hplain.1, hp.beq_eq hp' hplain.2]
    | _ => rfl
  | _, _, _, _, .case ht hx hy, h', hplain => by
    cases h' with
    | case ht' hx' hy' =>
      simp only [beq, ht.beq_eq ht' hplain.1, hx.beq_eq hx' hplain.2.1, hy.beq_eq hy' hplain.2.2]
    | _ => rfl
  | _, _, _, _, .subquery h, h', _ => by
    cases h' with
    | subquery h' => exact C.beq_eq h h'
    | _ => rfl

theorem ListCoupled.beqList_eq : ∀ {xs ys xs' ys' : List Scalar}, ListCoupled C xs ys →
    ListCoupled C xs' ys' → ListPlain xs → beqList xs xs' = beqList ys ys'
  | _, _, _, _, .nil, h', _ => by cases h' <;> rfl
  | _, _, _, _, .cons h hs, h', hplain => by
    cases h' with
    | nil => rfl
    | cons h' hs' => simp only [beqList, h.beq_eq h' hplain.1, hs.beqList_eq hs' hplain.2]
end

theorem Coupled.contains_eq {xs ys : List Scalar} (hs : List.Forall₂ (Coupled C) xs ys)
    {x y : Scalar} (h : x.Coupled C y) (hplain : x.Plain) : xs.contains x = ys.contains y :=
  hs.contains_eq fun _ _ h' => h.beq_eq h' hplain

end Scalar

end ChainQuery
