/-
Swaps over several routes: `types/routes.go` and the split swaps of `router.go`, both of
`x/poolmanager`, and `ContainsDuplicateDeepEqual` of `osmoutils`.

The two directions differ in what a hop names and in which end of the routes has to agree: for an
exact amount in it is the last denomination, for an exact amount out the first.  So the validation
is written once, over routes with arbitrary hops.

    accepted    ↔    non-empty, valid routes with the same end, and neighbours differ

(`validateSplitRoute_iff`).  That neighbours differ is not that all routes differ: the duplicate
check walks over the list once (`same_route_twice`).
-/
import MaanyDex.Gamm.Routes

namespace MaanyDex.Gamm

open List

variable (env : Env) (ctx : Ctx)

/-! ### Validation -/

/-- `ContainsDuplicateDeepEqual`; every element is compared with the next one. -/
def containsDuplicateDeepEqual {α : Type*} [DecidableEq α] : List α → Bool
  | a :: b :: rest => a = b || containsDuplicateDeepEqual (b :: rest)
  | _ => false

def invalidFinalTokenOutError (tokenOutGivenA tokenOutGivenB : Denom) : Fault :=
  .errf "invalid final token out, each path must end on the same token out, had (%s)  mismatch"
    (tokenOutGivenA ++ ascii ") and (" ++ tokenOutGivenB)

/-- The hops of a route, by what they say about denominations: the one that a hop names, and the
one of a whole route that has to be the same for all. -/
structure Hops (ρ : Type) where
  denom : ρ → Denom
  ends : List Denom → Denom
  ends_mem : ∀ {denoms}, denoms ≠ [] → ends denoms ∈ denoms

/-- The loop over the routes, with the end of the one before. -/
def validateMultihopRoutes {ρ : Type} (hops : Hops ρ) : Denom → List (List ρ) → Result Unit
  | _, [] => .ok ()
  | previous, multihopRoute :: rest => do
      let denoms := multihopRoute.map hops.denom
      validateRoutes env errEmptyRoutes denoms
      ensure (previous = [] || hops.ends denoms = previous)
        (invalidFinalTokenOutError previous (hops.ends denoms))
      validateMultihopRoutes hops (hops.ends denoms) rest

/-- `ValidateSwapAmountInSplitRoute` and `ValidateSwapAmountOutSplitRoute`. -/
def validateSplitRoute {ρ : Type} [DecidableEq ρ] (hops : Hops ρ)
    (multihopRoutes : List (List ρ)) : Result Unit := do
  ensure (!multihopRoutes.isEmpty) errEmptyRoutes
  validateMultihopRoutes env hops [] multihopRoutes
  ensure (!containsDuplicateDeepEqual multihopRoutes)
    (.err "duplicate multihop routes are not allowed")

/-- Hops that name what comes out; the last ones agree. -/
def hopsIn : Hops SwapAmountInRoute where
  denom := (·.tokenOutDenom)
  ends := (·.getLastD [])
  ends_mem {denoms} h := by
    rw [getLastD_eq_getLast?, List.getLast?_eq_getLast_of_ne_nil h]
    exact getLast_mem h

/-- Hops that name what goes in; the first ones agree. -/
def hopsOut : Hops SwapAmountOutRoute where
  denom := (·.tokenInDenom)
  ends := (·.headD [])
  ends_mem {denoms} h := by
    obtain ⟨d, rest, rfl⟩ := exists_cons_of_ne_nil h
    exact mem_cons_self

structure SwapAmountInSplitRoute where
  pools : List SwapAmountInRoute
  tokenInAmount : ℤ

structure SwapAmountOutSplitRoute where
  pools : List SwapAmountOutRoute
  tokenOutAmount : ℤ

def validateSwapAmountInSplitRoute (splitRoutes : List SwapAmountInSplitRoute) : Result Unit :=
  validateSplitRoute env hopsIn (splitRoutes.map (·.pools))

def validateSwapAmountOutSplitRoute (splitRoutes : List SwapAmountOutSplitRoute) : Result Unit :=
  validateSplitRoute env hopsOut (splitRoutes.map (·.pools))

/-! ### Swaps -/

/-- One round of the loop of `SplitRouteExactAmountIn`, with the total so far. -/
def splitIn (sender : Address) (tokenInDenom : Denom) (acc : ℤ × State)
    (multihopRoute : SwapAmountInSplitRoute) : Result (ℤ × State) := do
  let tokenIn ← newCoin env.toSdk tokenInDenom multihopRoute.tokenInAmount
  let (tokenOutAmount, s) ← routeExactAmountIn env ctx acc.2 sender multihopRoute.pools tokenIn 0
  let total ← checkedInt (acc.1 + tokenOutAmount)
  .ok (total, s)

def splitRouteExactAmountIn (s : State) (sender : Address) (routes : List SwapAmountInSplitRoute)
    (tokenInDenom : Denom) (tokenOutMinAmount : ℤ) : Result (ℤ × State) := do
  validateSwapAmountInSplitRoute env routes
  let (totalOutAmount, s) ← routes.foldlM (splitIn env ctx sender tokenInDenom) (0, s)
  ensure (0 < totalOutAmount) (.err "final total amount (out) must be positive")
  ensure (tokenOutMinAmount ≤ totalOutAmount)
    (.errf "price impact protection: expected %s"
      (Decimal.formatInt totalOutAmount ++ ascii " to be at least "
        ++ Decimal.formatInt tokenOutMinAmount))
  .ok (totalOutAmount, s)

def intMaxValue : ℤ := 2 ^ 256 - 1

/-- One round of the loop of `SplitRouteExactAmountOut`, with the total so far. -/
def splitOut (sender : Address) (tokenOutDenom : Denom) (acc : ℤ × State)
    (multihopRoute : SwapAmountOutSplitRoute) : Result (ℤ × State) := do
  let tokenOut ← newCoin env.toSdk tokenOutDenom multihopRoute.tokenOutAmount
  let (tokenInAmount, s) ←
    routeExactAmountOut env ctx acc.2 sender multihopRoute.pools intMaxValue tokenOut
  let total ← checkedInt (acc.1 + tokenInAmount)
  .ok (total, s)

def splitRouteExactAmountOut (s : State) (sender : Address) (route : List SwapAmountOutSplitRoute)
    (tokenOutDenom : Denom) (tokenInMaxAmount : ℤ) : Result (ℤ × State) := do
  validateSwapAmountOutSplitRoute env route
  let (totalInAmount, s) ← route.foldlM (splitOut env ctx sender tokenOutDenom) (0, s)
  ensure (0 < totalInAmount) (.err "final total amount (in) must be positive")
  ensure (totalInAmount ≤ tokenInMaxAmount)
    (.errf "price impact protection: expected %s"
      (Decimal.formatInt totalInAmount ++ ascii " to be at most "
        ++ Decimal.formatInt tokenInMaxAmount))
  .ok (totalInAmount, s)

/-! ### What is accepted -/

variable {env ctx} {ρ : Type} {hops : Hops ρ}

lemma containsDuplicateDeepEqual_eq_false {α : Type*} [DecidableEq α] {l : List α} :
    containsDuplicateDeepEqual l = false ↔ l.IsChain (· ≠ ·) := by
  induction l with
  | nil => simp [containsDuplicateDeepEqual]
  | cons a rest ih =>
    cases rest with
    | nil => simp [containsDuplicateDeepEqual]
    | cons b rest =>
      rw [containsDuplicateDeepEqual, isChain_cons_cons, ← ih, Bool.or_eq_false_iff,
        decide_eq_false_iff_not]

/-- A route with hops, all of which name valid denominations. -/
def ValidRoute (env : Env) (hops : Hops ρ) (route : List ρ) : Prop :=
  route ≠ [] ∧ ∀ hop ∈ route, env.validDenom (hops.denom hop) = true

variable {route : List ρ}

lemma validateRoutes_iff {errEmpty : Fault} :
    validateRoutes env errEmpty (route.map hops.denom) = .ok () ↔ ValidRoute env hops route := by
  rw [validateRoutes, Run.bind_unit_eq_ok, ensure_eq_ok_iff, ensure_eq_ok_iff]
  simp [ValidRoute]

def Hops.endOf (hops : Hops ρ) (route : List ρ) : Denom := hops.ends (route.map hops.denom)

lemma ValidRoute.endOf_ne (h : ValidRoute env hops route)
    (hempty : env.validDenom [] = false) : hops.endOf route ≠ [] := by
  intro hnil
  have hmem : hops.endOf route ∈ route.map hops.denom := hops.ends_mem (by simpa using h.1)
  rw [hnil] at hmem
  obtain ⟨hop, hhop, hdenom⟩ := mem_map.mp hmem
  have hvalid := h.2 hop hhop
  rw [hdenom, hempty] at hvalid
  cases hvalid

variable {routes : List (List ρ)}

/-- The loop lets through valid routes with the same end, which is that of the route before. -/
lemma validateMultihopRoutes_iff (hempty : env.validDenom [] = false) {previous : Denom} :
    validateMultihopRoutes env hops previous routes = .ok ()
      ↔ (∀ route ∈ routes, ValidRoute env hops route)
        ∧ ∃ d, (previous = [] ∨ previous = d) ∧ ∀ route ∈ routes, hops.endOf route = d := by
  induction routes generalizing previous with
  | nil =>
    refine ⟨fun _ => ⟨by simp, previous, Or.inr rfl, by simp⟩, fun _ => rfl⟩
  | cons route rest ih =>
    rw [validateMultihopRoutes, Run.bind_unit_eq_ok, Run.bind_unit_eq_ok, ih, validateRoutes_iff,
      ensure_eq_ok_iff]
    simp only [Bool.or_eq_true, decide_eq_true_eq, forall_mem_cons]
    constructor
    · rintro ⟨hroute, hprevious, hrest, d, hsame, hends⟩
      -- the end of a valid route is not empty, so it is the end of the rest
      have hd := hsame.resolve_left (hroute.endOf_ne hempty)
      exact ⟨⟨hroute, hrest⟩, d, hprevious.imp_right fun h => h.symm.trans hd, hd, hends⟩
    · rintro ⟨⟨hroute, hrest⟩, d, hprevious, hd, hends⟩
      exact ⟨hroute, hprevious.imp_right fun h => hd.trans h.symm, hrest, d, Or.inr hd, hends⟩

/-- Routes that can be swapped over together. -/
structure WellFormed (env : Env) (hops : Hops ρ) (routes : List (List ρ)) : Prop where
  nonempty : routes ≠ []
  valid : ∀ route ∈ routes, ValidRoute env hops route
  sameEnd : ∃ d, ∀ route ∈ routes, hops.endOf route = d

/-- **What is accepted**: routes that can be swapped over together, of which neighbours differ. -/
lemma validateSplitRoute_iff [DecidableEq ρ] (hempty : env.validDenom [] = false) :
    validateSplitRoute env hops routes = .ok ()
      ↔ WellFormed env hops routes ∧ routes.IsChain (· ≠ ·) := by
  rw [validateSplitRoute, Run.bind_unit_eq_ok, Run.bind_unit_eq_ok, ensure_eq_ok_iff,
    ensure_eq_ok_iff, validateMultihopRoutes_iff hempty, Bool.not_eq_true',
    Bool.not_eq_true', containsDuplicateDeepEqual_eq_false]
  constructor
  · rintro ⟨hne, ⟨hvalid, d, -, hends⟩, hchain⟩
    exact ⟨⟨by simpa using hne, hvalid, d, hends⟩, hchain⟩
  · rintro ⟨⟨hne, hvalid, d, hends⟩, hchain⟩
    exact ⟨by simpa using hne, ⟨hvalid, d, Or.inl rfl, hends⟩, hchain⟩

/-- If routes that can be swapped over together pass the check of neighbours, then no two routes
that are not neighbours are equal. -/
def NoDistantDuplicates (env : Env) (hops : Hops ρ) (routes : List (List ρ)) : Prop :=
  WellFormed env hops routes → routes.IsChain (· ≠ ·) →
    ∀ i j, i + 1 < j → j < routes.length → routes[i]? ≠ routes[j]?

lemma nodup_of_isChain {routes : List (List ρ)} (hchain : routes.IsChain (· ≠ ·))
    (h : ∀ i j, i + 1 < j → j < routes.length → routes[i]? ≠ routes[j]?) : routes.Nodup := by
  rw [nodup_iff_getElem?_ne_getElem?]
  intro i j hij hj
  rcases Nat.lt_or_eq_of_le (Nat.succ_le_of_lt hij) with hlt | rfl
  · exact h i j hlt hj
  · rw [List.getElem?_eq_getElem hj, List.getElem?_eq_getElem (Nat.lt_of_succ_lt hj)]
    exact fun heq => isChain_iff_getElem.mp hchain i hj (Option.some.inj heq)

lemma validateSplitRoute_nodup_iff [DecidableEq ρ] (hempty : env.validDenom [] = false)
    (routes : List (List ρ)) :
    (validateSplitRoute env hops routes = .ok () ↔ WellFormed env hops routes ∧ routes.Nodup)
      ↔ NoDistantDuplicates env hops routes := by
  rw [validateSplitRoute_iff hempty]
  constructor
  · intro h hformed hchain i j hij hj
    exact nodup_iff_getElem?_ne_getElem?.mp (h.mp ⟨hformed, hchain⟩).2 i j (by omega) hj
  · intro h
    constructor
    · rintro ⟨hformed, hchain⟩
      exact ⟨hformed, nodup_of_isChain hchain (h hformed hchain)⟩
    · rintro ⟨hformed, hnodup⟩
      exact ⟨hformed, List.Pairwise.isChain hnodup⟩

/-- **Split routes.**  A list of split routes is accepted exactly when it is not empty, its routes
are valid and end in the same denomination, and no two of them are equal, if and only if routes
that are not neighbours do not slip through.  Then the parts of a split swap go different ways. -/
theorem split_routes_distinct_iff (env : Env) (hempty : env.validDenom [] = false) :
    (∀ routes : List SwapAmountInSplitRoute,
      ((validateSwapAmountInSplitRoute env routes = .ok ()
          ↔ WellFormed env hopsIn (routes.map (·.pools)) ∧ (routes.map (·.pools)).Nodup)
        ↔ NoDistantDuplicates env hopsIn (routes.map (·.pools)))
      ∧ ∀ ctx s sender denom limit out,
        splitRouteExactAmountIn env ctx s sender routes denom limit = .ok out →
        NoDistantDuplicates env hopsIn (routes.map (·.pools)) → (routes.map (·.pools)).Nodup)
    ∧ ∀ routes : List SwapAmountOutSplitRoute,
      ((validateSwapAmountOutSplitRoute env routes = .ok ()
          ↔ WellFormed env hopsOut (routes.map (·.pools)) ∧ (routes.map (·.pools)).Nodup)
        ↔ NoDistantDuplicates env hopsOut (routes.map (·.pools)))
      ∧ ∀ ctx s sender denom limit out,
        splitRouteExactAmountOut env ctx s sender routes denom limit = .ok out →
        NoDistantDuplicates env hopsOut (routes.map (·.pools)) → (routes.map (·.pools)).Nodup := by
  constructor
  all_goals
    intro routes
    refine ⟨validateSplitRoute_nodup_iff hempty _, ?_⟩
    intro ctx s sender denom limit out hswap hcond
    obtain ⟨_, hvalid, -⟩ := Run.bind_ok hswap
    obtain ⟨hformed, hchain⟩ := (validateSplitRoute_iff hempty).mp hvalid
    exact nodup_of_isChain hchain (hcond hformed hchain)

/-- From `foo` to `bar`, directly or with a detour over `baz`. -/
def direct (tokenInAmount : ℤ) : SwapAmountInSplitRoute := ⟨[⟨1, ascii "bar"⟩], tokenInAmount⟩

def detour (tokenInAmount : ℤ) : SwapAmountInSplitRoute :=
  ⟨[⟨1, ascii "bar"⟩, ⟨2, ascii "baz"⟩, ⟨2, ascii "bar"⟩], tokenInAmount⟩

/-- Two different ways are accepted. -/
theorem split_routes_distinct_iff_detour :
    validateSwapAmountInSplitRoute chainEnv [direct 100, detour 100] = .ok () := by
  have hiff := ((split_routes_distinct_iff chainEnv (by decide)).1 [direct 100, detour 100]).1
  have hnodup : ([direct 100, detour 100].map (·.pools)).Nodup := by decide
  have hdistant : NoDistantDuplicates chainEnv hopsIn ([direct 100, detour 100].map (·.pools)) := by
    intro _ _ i j hij hj
    change j < 2 at hj
    omega
  refine (hiff.mpr hdistant).mpr ⟨⟨by decide, ?_, ascii "bar", ?_⟩, hnodup⟩
  · simp only [ValidRoute]
    decide
  · decide

/-- Alice swaps directly, with a detour, and directly again. -/
theorem same_route_twice :
    validateSwapAmountInSplitRoute chainEnv [direct 100, detour 100, direct 100] = .ok ()
      ∧ ¬ ([direct 100, detour 100, direct 100].map (·.pools)).Nodup
      ∧ ((splitRouteExactAmountIn chainEnv tenthCtx twoPools alice
        [direct 100, detour 100, direct 100] (ascii "foo") 1).toOption.map (·.1)).isSome = true := by
  decide +kernel

end MaanyDex.Gamm
