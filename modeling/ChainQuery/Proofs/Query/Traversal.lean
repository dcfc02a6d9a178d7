import ChainQuery.Proofs.Query.Chain
import ChainQuery.Proofs.Outcome
/-!
# Rebuilding a query

`Query.mapExprs` rebuilds a query over what a computation makes of its expressions.  How it ends is said
here without recursion on operators, so that nobody else walks through them:

* it succeeds with the queries of the same operators, each expression in the place of the one that it was
  made of (`Query.mapExprs_eq_ok`);
* it fails as the computation does along the list of the expressions (`Query.mapExprs_eq_error`).
-/

namespace ChainQuery

/-! ## 1. Related queries -/

/-- Lambdas of the same parameters with related bodies. -/
structure Lambda.Pointwise (R : Expr → Expr → Prop) (l l' : Lambda) : Prop where
  params : l'.params = l.params
  body : R l.body l'.body

namespace Query

/-- **Queries of the same operators**, with related expressions in the same places. -/
inductive Pointwise (R : Expr → Expr → Prop) : Query → Query → Prop
  | table (rowType : String) : Pointwise R (.table rowType) (.table rowType)
  | select {source source' : Query} {selector selector' : Lambda}
      (hsource : Pointwise R source source') (hselector : selector.Pointwise R selector') :
      Pointwise R (.select source selector) (.select source' selector')
  | filter {source source' : Query} {predicate predicate' : Lambda}
      (hsource : Pointwise R source source') (hpredicate : predicate.Pointwise R predicate') :
      Pointwise R (.filter source predicate) (.filter source' predicate')
  | join {outer outer' inner inner' : Query}
      {outerKey outerKey' innerKey innerKey' result result' : Lambda}
      (houter : Pointwise R outer outer') (hinner : Pointwise R inner inner')
      (houterKey : outerKey.Pointwise R outerKey') (hinnerKey : innerKey.Pointwise R innerKey')
      (hresult : result.Pointwise R result') :
      Pointwise R (.join outer inner outerKey innerKey result)
        (.join outer' inner' outerKey' innerKey' result')
  | crossJoin {source source' collection collection' : Query} {result result' : Lambda}
      (hsource : Pointwise R source source') (hcollection : Pointwise R collection collection')
      (hresult : result.Pointwise R result') :
      Pointwise R (.crossJoin source collection result) (.crossJoin source' collection' result')
  | orderBy {source source' : Query} {key key' : Lambda} (kind : OrderingKind)
      (hsource : Pointwise R source source') (hkey : key.Pointwise R key') :
      Pointwise R (.orderBy source key kind) (.orderBy source' key' kind)
  | call (method : String) {source source' : Query} {args args' : List Expr}
      (hsource : Pointwise R source source') (hargs : List.Forall₂ R args args') :
      Pointwise R (.call method source args) (.call method source' args')

variable {R : Expr → Expr → Prop} {q q' : Query}

/-- The expressions of related queries are related one by one. -/
theorem Pointwise.forall₂_exprs (h : q.Pointwise R q') : List.Forall₂ R q.exprs q'.exprs := by
  induction h with
  | table rowType => exact .nil
  | select _ hselector ih => exact List.rel_append ih (.cons hselector.body .nil)
  | filter _ hpredicate ih => exact List.rel_append ih (.cons hpredicate.body .nil)
  | join _ _ houterKey hinnerKey hresult ihOuter ihInner =>
    exact List.rel_append (List.rel_append ihOuter ihInner)
      (.cons houterKey.body (.cons hinnerKey.body (.cons hresult.body .nil)))
  | crossJoin _ _ hresult ihSource ihCollection =>
    exact List.rel_append (List.rel_append ihSource ihCollection) (.cons hresult.body .nil)
  | orderBy kind _ hkey ih => exact List.rel_append ih (.cons hkey.body .nil)
  | call method _ hargs ih => exact List.rel_append ih hargs

/-- The lambdas of related queries are related one by one. -/
theorem Pointwise.forall₂_lambdas (h : q.Pointwise R q') :
    List.Forall₂ (Lambda.Pointwise R) q.lambdas q'.lambdas := by
  induction h with
  | table rowType => exact .nil
  | select _ hl ih | filter _ hl ih | orderBy kind _ hl ih => exact .cons hl ih
  | join _ _ houterKey hinnerKey hresult ihOuter ihInner =>
    exact List.rel_append (.cons houterKey (.cons hinnerKey (.cons hresult ihOuter))) ihInner
  | crossJoin _ _ hresult ihSource ihCollection =>
    exact List.rel_append (.cons hresult ihSource) ihCollection
  | call method _ _ ih => exact ih

/-- Related queries are related in another way if their expressions are. -/
theorem Pointwise.imp {S : Expr → Expr → Prop} (h : q.Pointwise R q')
    (hS : ∀ e ∈ q.exprs, ∀ e', R e e' → S e e') : q.Pointwise S q' := by
  induction h with
  | table rowType => exact .table rowType
  | select _ hselector ih =>
    obtain ⟨hsource, hbody⟩ := List.forall_mem_append.mp hS
    exact .select (ih hsource) ⟨hselector.params, hbody _ List.mem_cons_self _ hselector.body⟩
  | filter _ hpredicate ih =>
    obtain ⟨hsource, hbody⟩ := List.forall_mem_append.mp hS
    exact .filter (ih hsource) ⟨hpredicate.params, hbody _ List.mem_cons_self _ hpredicate.body⟩
  | join _ _ houterKey hinnerKey hresult ihOuter ihInner =>
    simp only [exprs, List.forall_mem_append, List.forall_mem_cons] at hS
    obtain ⟨⟨houter, hinner⟩, houterBody, hinnerBody, hbody, _⟩ := hS
    exact .join (ihOuter houter) (ihInner hinner) ⟨houterKey.params, houterBody _ houterKey.body⟩
      ⟨hinnerKey.params, hinnerBody _ hinnerKey.body⟩ ⟨hresult.params, hbody _ hresult.body⟩
  | crossJoin _ _ hresult ihSource ihCollection =>
    simp only [exprs, List.forall_mem_append, List.forall_mem_singleton] at hS
    obtain ⟨⟨hsource, hcollection⟩, hbody⟩ := hS
    exact .crossJoin (ihSource hsource) (ihCollection hcollection)
      ⟨hresult.params, hbody _ hresult.body⟩
  | orderBy kind _ hkey ih =>
    obtain ⟨hsource, hbody⟩ := List.forall_mem_append.mp hS
    exact .orderBy kind (ih hsource) ⟨hkey.params, hbody _ List.mem_cons_self _ hkey.body⟩
  | call method _ hargs ih =>
    obtain ⟨hsource, hbody⟩ := List.forall_mem_append.mp hS
    have hmem := (List.forall₂_and_left _ _).mpr ⟨fun _ he => he, hargs⟩
    exact .call method (ih hsource) (hmem.imp fun e e' he => hbody e he.1 e' he.2)

theorem pointwise_refl (q : Query) : q.Pointwise Eq q := by
  induction q with
  | table rowType => exact .table rowType
  | select source selector ih => exact .select ih ⟨rfl, rfl⟩
  | filter source predicate ih => exact .filter ih ⟨rfl, rfl⟩
  | join outer inner outerKey innerKey result ihOuter ihInner =>
    exact .join ihOuter ihInner ⟨rfl, rfl⟩ ⟨rfl, rfl⟩ ⟨rfl, rfl⟩
  | crossJoin source collection result ihSource ihCollection =>
    exact .crossJoin ihSource ihCollection ⟨rfl, rfl⟩
  | orderBy source key kind ih => exact .orderBy kind ih ⟨rfl, rfl⟩
  | call method source args ih => exact .call method ih (List.forall₂_same.mpr fun _ _ => rfl)

end Query

variable {ε : Type} {f : Expr → Except ε Expr}

/-! ## 2. Success -/

theorem Lambda.mapBody_eq_ok {l l' : Lambda} :
    l.mapBody f = .ok l' ↔ l.Pointwise (fun e e' => f e = .ok e') l' := by
  rw [Lambda.mapBody, Except.bind_eq_ok]
  constructor
  · rintro ⟨body, hbody, h⟩
    cases h
    exact ⟨rfl, hbody⟩
  · rintro ⟨hparams, hbody⟩
    refine ⟨l'.body, hbody, ?_⟩
    rw [← hparams]
    rfl

namespace Query

/-- **A query is rebuilt to the same operators over what became of each expression**, and is rebuilt iff
something became of each. -/
theorem mapExprs_eq_ok {q q' : Query} :
    q.mapExprs f = .ok q' ↔ q.Pointwise (fun e e' => f e = .ok e') q' := by
  constructor
  · intro h
    induction q generalizing q' with
    | table rowType =>
      cases h
      exact .table rowType
    | select source selector ih =>
      obtain ⟨source', hsource, h⟩ := Except.bind_eq_ok.mp h
      obtain ⟨selector', hselector, h⟩ := Except.bind_eq_ok.mp h
      cases h
      exact .select (ih hsource) (Lambda.mapBody_eq_ok.mp hselector)
    | filter source predicate ih =>
      obtain ⟨source', hsource, h⟩ := Except.bind_eq_ok.mp h
      obtain ⟨predicate', hpredicate, h⟩ := Except.bind_eq_ok.mp h
      cases h
      exact .filter (ih hsource) (Lambda.mapBody_eq_ok.mp hpredicate)
    | join outer inner outerKey innerKey result ihOuter ihInner =>
      obtain ⟨outer', houter, h⟩ := Except.bind_eq_ok.mp h
      obtain ⟨inner', hinner, h⟩ := Except.bind_eq_ok.mp h
      obtain ⟨outerKey', houterKey, h⟩ := Except.bind_eq_ok.mp h
      obtain ⟨innerKey', hinnerKey, h⟩ := Except.bind_eq_ok.mp h
      obtain ⟨result', hresult, h⟩ := Except.bind_eq_ok.mp h
      cases h
      exact .join (ihOuter houter) (ihInner hinner) (Lambda.mapBody_eq_ok.mp houterKey)
        (Lambda.mapBody_eq_ok.mp hinnerKey) (Lambda.mapBody_eq_ok.mp hresult)
    | crossJoin source collection result ihSource ihCollection =>
      obtain ⟨source', hsource, h⟩ := Except.bind_eq_ok.mp h
      obtain ⟨collection', hcollection, h⟩ := Except.bind_eq_ok.mp h
      obtain ⟨result', hresult, h⟩ := Except.bind_eq_ok.mp h
      cases h
      exact .crossJoin (ihSource hsource) (ihCollection hcollection)
        (Lambda.mapBody_eq_ok.mp hresult)
    | orderBy source key kind ih =>
      obtain ⟨source', hsource, h⟩ := Except.bind_eq_ok.mp h
      obtain ⟨key', hkey, h⟩ := Except.bind_eq_ok.mp h
      cases h
      exact .orderBy kind (ih hsource) (Lambda.mapBody_eq_ok.mp hkey)
    | call method source args ih =>
      obtain ⟨source', hsource, h⟩ := Except.bind_eq_ok.mp h
      obtain ⟨args', hargs, h⟩ := Except.bind_eq_ok.mp h
      cases h
      exact .call method (ih hsource) (Except.mapM_eq_ok.mp hargs)
  · intro h
    induction h with
    | table rowType => rfl
    | select _ hselector ih =>
      exact Except.bind_eq_ok.mpr ⟨_, ih,
        Except.bind_eq_ok.mpr ⟨_, Lambda.mapBody_eq_ok.mpr hselector, rfl⟩⟩
    | filter _ hpredicate ih =>
      exact Except.bind_eq_ok.mpr ⟨_, ih,
        Except.bind_eq_ok.mpr ⟨_, Lambda.mapBody_eq_ok.mpr hpredicate, rfl⟩⟩
    | join _ _ houterKey hinnerKey hresult ihOuter ihInner =>
      exact Except.bind_eq_ok.mpr ⟨_, ihOuter, Except.bind_eq_ok.mpr ⟨_, ihInner,
        Except.bind_eq_ok.mpr ⟨_, Lambda.mapBody_eq_ok.mpr houterKey,
          Except.bind_eq_ok.mpr ⟨_, Lambda.mapBody_eq_ok.mpr hinnerKey,
            Except.bind_eq_ok.mpr ⟨_, Lambda.mapBody_eq_ok.mpr hresult, rfl⟩⟩⟩⟩⟩
    | crossJoin _ _ hresult ihSource ihCollection =>
      exact Except.bind_eq_ok.mpr ⟨_, ihSource, Except.bind_eq_ok.mpr ⟨_, ihCollection,
        Except.bind_eq_ok.mpr ⟨_, Lambda.mapBody_eq_ok.mpr hresult, rfl⟩⟩⟩
    | orderBy kind _ hkey ih =>
      exact Except.bind_eq_ok.mpr ⟨_, ih,
        Except.bind_eq_ok.mpr ⟨_, Lambda.mapBody_eq_ok.mpr hkey, rfl⟩⟩
    | call method _ hargs ih =>
      exact Except.bind_eq_ok.mpr ⟨_, ih,
        Except.bind_eq_ok.mpr ⟨_, Except.mapM_eq_ok.mpr hargs, rfl⟩⟩

/-! ## 3. Failure -/

/-- **Rebuilding a query is a traversal of the list of its expressions**, for whatever comes after it
without a look at the query. -/
theorem mapExprs_bind_const {m : Type → Type} [Monad m] [LawfulMonad m] {β : Type}
    (f : Expr → m Expr) (q : Query) (next : m β) :
    (q.mapExprs f >>= fun _ => next) = (q.exprs.mapM f >>= fun _ => next) := by
  induction q generalizing next with
  | table rowType => simp [mapExprs, exprs]
  | select source l ih | filter source l ih | orderBy source l kind ih =>
    simp [mapExprs, exprs, Lambda.mapBody, ih]
  | join outer inner outerKey innerKey result ihOuter ihInner =>
    simp [mapExprs, exprs, Lambda.mapBody, ihOuter, ihInner]
  | crossJoin source collection result ihSource ihCollection =>
    simp [mapExprs, exprs, Lambda.mapBody, ihSource, ihCollection]
  | call method source args ih => simp [mapExprs, exprs, ih]

/-- **Rebuilding a query fails as the traversal of its expressions does.** -/
theorem mapExprs_eq_error {q : Query} {error : ε} :
    q.mapExprs f = .error error ↔ q.exprs.mapM f = .error error := by
  have hdrop : ∀ {α : Type} (x : Except ε α),
      x = .error error ↔ (x >>= fun _ => (pure () : Except ε Unit)) = .error error := by
    intro α x
    cases x with
    | ok a => simp [bind, Except.bind, pure, Except.pure]
    | error e => simp [bind, Except.bind]
  rw [hdrop, mapExprs_bind_const, ← hdrop]

end Query

end ChainQuery
