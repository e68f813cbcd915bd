import Mathlib.Data.List.Nodup

/-!
# Routers

What a program relies on of an HTTP router that is built by calls: routes are added, a
middleware is laid over the routes that are there, and two routers are merged. The router
itself is a parameter; a program is the calls it makes.

## Key results

- `Documented.endpoint_iff`: a router that keeps to its documentation reaches the endpoints that
  `Router.dispatch` computes
- `endpoint_merge_layer`: a middleware stands before the routes that were there when it was laid,
  and before no route that is merged later
- `dispatch_documented`: there is such a router
-/

namespace Http

inductive Method where
  | get
  | head
  | post
  | other (name : String)
deriving DecidableEq, Repr

/-- The routes made by `get` and by `post`. -/
inductive MethodFilter where
  | get
  | post
deriving DecidableEq, Repr

/-- A `get` route is also called for `HEAD`. -/
def MethodFilter.accepts : MethodFilter → Method → Bool
  | .get, .get | .get, .head | .post, .post => true
  | _, _ => false

/-- What a router reads of a request. -/
class HttpRequest (ρ : Type*) where
  method : ρ → Method
  path : ρ → String

/-- What becomes of a request. -/
inductive Routed (ε σ : Type*) where
  | endpoint (e : ε)
  /-- A middleware has answered it. -/
  | answered (status : σ)
  | methodNotAllowed
  | notFound
deriving DecidableEq

/-- A router, as the calls that build it. A middleware answers a request, or lets it pass. -/
inductive Router (ρ ε σ : Type*) where
  | new
  | route (r : Router ρ ε σ) (path : String) (filter : MethodFilter) (endpoint : ε)
  | layer (r : Router ρ ε σ) (middleware : ρ → Option σ)
  | merge (r s : Router ρ ε σ)

namespace Router

variable {ρ ε σ : Type*}

/-- The paths that have a route. -/
def paths : Router ρ ε σ → List String
  | .new => []
  | .route r path _ _ => path :: r.paths
  | .layer r _ => r.paths
  | .merge r s => r.paths ++ s.paths

/-- A path without captures. -/
def Literal (path : String) : Prop := '{' ∉ path.toList

instance (path : String) : Decidable (Literal path) :=
  inferInstanceAs (Decidable ('{' ∉ path.toList))

/-- A router over literal paths, none of which has two routes: building another one panics. -/
def Valid (r : Router ρ ε σ) : Prop := r.paths.Nodup ∧ ∀ path ∈ r.paths, Literal path

instance (r : Router ρ ε σ) : Decidable r.Valid := inferInstanceAs (Decidable (_ ∧ _))

theorem Valid.of_route {r : Router ρ ε σ} {p : String} {f : MethodFilter} {e : ε}
    (h : (Router.route r p f e).Valid) : r.Valid :=
  ⟨(List.nodup_cons.mp h.1).2, fun path hpath => h.2 path (List.mem_cons_of_mem _ hpath)⟩

theorem Valid.of_merge {r s : Router ρ ε σ} (h : (Router.merge r s).Valid) : r.Valid ∧ s.Valid :=
  ⟨⟨(List.nodup_append.mp h.1).1, fun path hpath => h.2 path (List.mem_append_left _ hpath)⟩,
    ⟨(List.nodup_append.mp h.1).2.1, fun path hpath => h.2 path (List.mem_append_right _ hpath)⟩⟩

variable [HttpRequest ρ]

open HttpRequest

/-- A router that keeps to its documentation, over literal paths. -/
structure Documented (dispatch : Router ρ ε σ → ρ → Routed ε σ) : Prop where
  route : ∀ r p f e q, (Router.route r p f e).Valid → path q ∈ (Router.route r p f e).paths →
    dispatch (.route r p f e) q =
      if path q = p then if f.accepts (method q) then .endpoint e else .methodNotAllowed
      else dispatch r q
  /-- The routes that are there get the middleware. -/
  layer : ∀ r m q, (Router.layer r m).Valid → path q ∈ r.paths →
    dispatch (.layer r m) q =
      match m q with
      | some status => .answered status
      | none => dispatch r q
  /-- Both routers keep their routes, with what is laid over them. -/
  merge : ∀ r s q, (Router.merge r s).Valid → path q ∈ (Router.merge r s).paths →
    dispatch (.merge r s) q = if path q ∈ s.paths then dispatch s q else dispatch r q
  /-- Without a route there is the fallback, which is no endpoint. -/
  fallback : ∀ r q, r.Valid → path q ∉ r.paths → ∀ e, dispatch r q ≠ .endpoint e

/-- The router, computed. -/
def dispatch : Router ρ ε σ → ρ → Routed ε σ
  | .new, _ => .notFound
  | .route r p f e, q =>
    if path q = p then if f.accepts (method q) then .endpoint e else .methodNotAllowed
    else r.dispatch q
  | .layer r m, q =>
    if path q ∈ r.paths then
      match m q with
      | some status => .answered status
      | none => r.dispatch q
    else .notFound
  | .merge r s, q => if path q ∈ s.paths then s.dispatch q else r.dispatch q

/-- A request without a route reaches nothing. -/
theorem dispatch_of_not_mem {r : Router ρ ε σ} {q : ρ} (h : path q ∉ r.paths) :
    r.dispatch q = .notFound := by
  induction r with
  | new => rfl
  | route r p f e ih =>
    rw [paths, List.mem_cons, not_or] at h
    rw [dispatch, if_neg h.1]
    exact ih h.2
  | layer r m ih => rw [dispatch, if_neg (show path q ∉ r.paths from h)]
  | merge r s ihr ihs =>
    rw [paths, List.mem_append, not_or] at h
    rw [dispatch, if_neg h.2]
    exact ihr h.1

theorem mem_paths_of_endpoint {r : Router ρ ε σ} {q : ρ} {e : ε} (h : r.dispatch q = .endpoint e) :
    path q ∈ r.paths := by
  by_contra hpath
  rw [dispatch_of_not_mem hpath] at h
  cases h

@[simp] theorem endpoint_new (q : ρ) (e : ε) :
    (Router.new : Router ρ ε σ).dispatch q = .endpoint e ↔ False := by simp [dispatch]

/-- The endpoint of a route is reached by the requests for its path that its method accepts. -/
theorem endpoint_route (r : Router ρ ε σ) (p : String) (f : MethodFilter) (e' : ε) (q : ρ) (e : ε) :
    (r.route p f e').dispatch q = .endpoint e ↔
      (path q = p ∧ f.accepts (method q) = true ∧ e' = e) ∨
        (path q ≠ p ∧ r.dispatch q = .endpoint e) := by
  rw [dispatch]
  by_cases hp : path q = p
  · rw [if_pos hp]
    by_cases hf : f.accepts (method q) = true
    · simp [hp, hf]
    · simp [hp, hf]
  · simp [hp]

/-- The rules determine the router on the requests that have a route. -/
theorem Documented.dispatch_eq {serve : Router ρ ε σ → ρ → Routed ε σ} (h : Documented serve)
    {r : Router ρ ε σ} (hvalid : r.Valid) {q : ρ} (hpath : path q ∈ r.paths) :
    serve r q = r.dispatch q := by
  induction r with
  | new => cases hpath
  | route r p f e ih =>
    rw [h.route r p f e q hvalid hpath, dispatch]
    by_cases hp : path q = p
    · rw [if_pos hp, if_pos hp]
    · rw [if_neg hp, if_neg hp]
      exact ih hvalid.of_route (List.mem_of_ne_of_mem hp hpath)
  | layer r m ih =>
    have hr : serve r q = r.dispatch q := ih hvalid hpath
    rw [h.layer r m q hvalid hpath, dispatch, if_pos (show path q ∈ r.paths from hpath), hr]
  | merge r s ihr ihs =>
    rw [h.merge r s q hvalid hpath, dispatch]
    by_cases hs : path q ∈ s.paths
    · rw [if_pos hs, if_pos hs]
      exact ihs hvalid.of_merge.2 hs
    · rw [if_neg hs, if_neg hs]
      exact ihr hvalid.of_merge.1 ((List.mem_append.mp hpath).resolve_right hs)

theorem Documented.endpoint_iff {serve : Router ρ ε σ → ρ → Routed ε σ} (h : Documented serve)
    {r : Router ρ ε σ} (hvalid : r.Valid) (q : ρ) (e : ε) :
    serve r q = .endpoint e ↔ r.dispatch q = .endpoint e := by
  by_cases hpath : path q ∈ r.paths
  · rw [h.dispatch_eq hvalid hpath]
  · constructor
    · exact fun hserve => absurd hserve (h.fallback r q hvalid hpath e)
    · exact fun hdispatch => absurd (mem_paths_of_endpoint hdispatch) hpath

/-- There is a router that keeps to the documentation. -/
theorem dispatch_documented : Documented (dispatch : Router ρ ε σ → ρ → Routed ε σ) where
  route _ _ _ _ _ _ _ := rfl
  layer r m q _ hpath := by rw [dispatch, if_pos hpath]
  merge _ _ _ _ _ := rfl
  fallback r q _ hpath e h := hpath (mem_paths_of_endpoint h)

/-- What is reached in a router with a middleware, after another one has been merged into it: an
    endpoint of the first if the middleware lets the request pass, or one of the second. -/
theorem endpoint_merge_layer {r s : Router ρ ε σ} {m : ρ → Option σ}
    (hvalid : ((r.layer m).merge s).Valid) (q : ρ) (e : ε) :
    ((r.layer m).merge s).dispatch q = .endpoint e ↔
      (m q = none ∧ r.dispatch q = .endpoint e) ∨ s.dispatch q = .endpoint e := by
  have hdisjoint := (List.nodup_append.mp hvalid.1).2.2
  by_cases hs : path q ∈ s.paths
  · have hr : r.dispatch q ≠ .endpoint e := by
      intro h
      have hmem : path q ∈ r.paths := mem_paths_of_endpoint h
      exact hdisjoint (path q) hmem (path q) hs rfl
    simp [dispatch, hs, hr]
  · have hnot : s.dispatch q ≠ .endpoint e := fun h => hs (mem_paths_of_endpoint h)
    by_cases hr : path q ∈ r.paths
    · cases hm : m q <;> simp [dispatch, hs, hr, hm, hnot]
    · simp [dispatch, hs, hr, dispatch_of_not_mem hr, hnot]

end Router

end Http
