import ForwardProxy.Proofs.Balancer.Choosing

/-!
# Which route serves a request

A request is served by the route that answers to the host it names, if that route has backends, and then by one of
them: the first, any, or the one whose turn it is. There is at most one such route, whatever the table is. Where
there is none, or the only one is without backends, the request is not served under any strategy. This holds for
choices that are made side by side, at any point of a run, and for a choice that is made as a whole.

`routes_are_exact` puts together what the modules on lookups and on choices have: `named` and `route` are about the
lookup, `picked` and `lost` about any result of a choice for the route that was looked up, and `drawn` says of the
random strategy that each place of the list can be drawn. How likely each of them is cannot be said here: the draw is a
number that comes from outside.

A Host field may hold a tab and counts as text, though a tab is no visible character (`tabs_are_text`); such a host is
looked up as it stands and has no route, while the target of the same request may name one.
-/

namespace ForwardProxy.Balancer

variable {strategy : Strategy} {routes : Routes} {bs : List String} {host : String}

/-- A draw below the number of backends picks the backend in that place. -/
theorem choose_random (served : Serves routes host bs) {i : Nat} (inside : i < bs.length) :
    ((Balancer.ofRoutes .random routes).choose i host).1 = .ok bs[i] := by
  obtain ⟨found, nonempty⟩ := served
  obtain ⟨first, more, rfl⟩ := List.exists_cons_of_ne_nil nonempty
  have found : (Balancer.ofRoutes .random routes).backends? host = Option.some (first :: more) := found
  have place : i % (more.length + 1) = i := Nat.mod_eq_of_lt inside
  simp only [Balancer.choose, found, place, List.getElem?_eq_getElem inside, Option.getD_some]
  rfl

namespace SharedBalancer

variable {h : List Handout} {s : SharedBalancer} {request : Http.Request}

/-- The route that a request finds, where a history has led. -/
structure Routed (strategy : Strategy) (routes : Routes) (h : List Handout) (s : SharedBalancer)
    (request : Http.Request) : Prop where
  /-- The host that is looked up is the one that the request names. -/
  named : request.Names request.namedHost
  /-- A route with backends is looked up just when it answers to the host. -/
  route : ∀ r bs, Serves routes r bs →
    (s.balancer.routeKey request.namedHost = r ↔ AnswersTo routes r request.namedHost)
  /-- The backend is a member of the list of that route, by the strategy; only the reserved strategy fails. -/
  picked : ∀ r bs, Serves routes r bs → AnswersTo routes r request.namedHost →
    ∀ turn result, Gets h s (s.balancer.routeKey request.namedHost) turn result →
      (∃ b ∈ bs, Picks strategy bs turn b ∧ result = .ok b) ∨
        strategy = .fair ∧ result = .error (.unsupportedStrategy .fair)
  /-- Without such a route nothing is found, whatever the strategy. -/
  lost : (∀ r bs, Serves routes r bs → ¬ AnswersTo routes r request.namedHost) →
    ∀ turn result, Gets h s (s.balancer.routeKey request.namedHost) turn result →
      result = .error (.routeNotFound (s.balancer.routeKey request.namedHost))
  /-- There are places to draw from, and every one of them is in the list: any member may be picked. -/
  drawn : strategy = .random → ∀ r bs, Serves routes r bs → 0 < bs.length ∧
    ∀ i (inside : i < bs.length), (s.balancer.choose i r).1 = .ok bs[i]

/-- Requests are served by the route that answers to their host, and by no other. -/
theorem routes_are_exact (r : system.Run (ofRoutes strategy routes) h s) (request : Http.Request) :
    Routed strategy routes h s request := by
  have same : s.balancer.routeKey request.namedHost =
      (Balancer.ofRoutes strategy routes).routeKey request.namedHost := by
    rw [Balancer.routeKey, Balancer.backends?, routes_of_run r]
    rfl
  have exact' : ∀ r bs, Serves routes r bs →
      (s.balancer.routeKey request.namedHost = r ↔ AnswersTo routes r request.namedHost) := by
    intro r bs served
    rw [same]
    exact routeKey_eq_iff served.isRoute
  refine ⟨request.names_namedHost, exact', ?_, ?_, ?_⟩
  · intro key bs served answers turn result gets
    obtain rfl := (exact' key bs served).mpr answers
    cases found_of_gets r gets with
    | backend served' picked =>
      obtain rfl := served.unique served'
      exact .inl ⟨_, picked.mem, picked, rfl⟩
    | unsupported fair => exact .inr ⟨fair, rfl⟩
    | noRoute unserved => exact absurd served (unserved bs)
  · intro unserved turn result gets
    have unanswered {bs : List String} : ¬ Serves routes (s.balancer.routeKey request.namedHost) bs :=
      fun served => unserved _ bs served ((exact' _ bs served).mp rfl)
    cases found_of_gets r gets with
    | backend served => exact absurd served unanswered
    | unsupported _ served => exact absurd served unanswered
    | noRoute => rfl
  · rintro rfl key bs served
    refine ⟨List.length_pos_iff.mpr served.2, fun i inside => ?_⟩
    rw [(steady_of_run (by simp) r).balancer]
    exact choose_random served inside

/-- The second request for a route with a port behind its name gets the second backend. A route whose name has a port
does not answer to another port. -/
theorem routes_are_exact_port : ∃ (h : List Handout) (s : SharedBalancer) (request : Http.Request),
    system.Run (ofRoutes .roundRobin [("app", ["A", "B"]), ("app:80", [])]) h s ∧
      request.namedHost = "app:8080" ∧ Gets h s (s.balancer.routeKey request.namedHost) 1 (.ok "B") ∧
      Picks .roundRobin ["A", "B"] 1 "B" := by
  let request : Http.Request := { uri := .origin .root, headers := ⟨[("host", Bytes.ofString "app:8080")]⟩ }
  have moves : system.replay (ofRoutes .roundRobin [("app", ["A", "B"]), ("app:80", [])])
      [.ask "app", .enter 0 0, .acquire 0, .produce "app", .receive 0, .ask "app", .enter 1 0, .acquire 1,
        .produce "app", .receive 1] = some ([⟨0, "app", "A"⟩, ⟨1, "app", "B"⟩], _) := rfl
  obtain ⟨h, s, run, done, second⟩ : ∃ h s,
      system.Run (ofRoutes .roundRobin [("app", ["A", "B"]), ("app:80", [])]) h s ∧
        s.choices[1]? = some ⟨"app", .done (.ok "B")⟩ ∧ servedBefore h 1 "app" = 1 :=
    ⟨_, _, StepSystem.Run.of_replay moves, rfl, rfl⟩
  have routed := routes_are_exact run request
  have host : request.namedHost = "app:8080" := by decide
  have served : Serves [("app", ["A", "B"]), ("app:80", [])] "app" ["A", "B"] := ⟨rfl, by simp⟩
  have answers : AnswersTo [("app", ["A", "B"]), ("app:80", [])] "app" request.namedHost := by
    rw [host]
    exact .inr ⟨by simp [IsRoute], "8080".toList, forall_mem_of_all (by decide), by decide⟩
  have gets : Gets h s (s.balancer.routeKey request.namedHost) 1 (.ok "B") := by
    rw [(routed.route "app" _ served).mpr answers, ← second]
    exact .among done
  obtain ⟨b, -, picked, same⟩ | ⟨fair, -⟩ := routed.picked "app" _ served answers 1 _ gets
  · cases same
    exact ⟨h, s, request, run, host, gets, picked⟩
  · cases fair

/-- A Host field with a tab is text, and its host is looked up. -/
theorem tabs_are_text : ∃ (request : Http.Request) (routes : Routes),
    request.headers.first? "host" = some (Bytes.ofString "other\tx") ∧
      (∃ b ∈ Bytes.ofString "other\tx", ¬ (0x20 ≤ b ∧ b ≤ 0x7E)) ∧ request.uri.host? = some "app" ∧
      Serves routes "app" ["127.0.0.1:1"] ∧
      ∀ draw, ((Balancer.ofRoutes .first routes).chooseNamed draw request.namedHost).1 =
        .error (.routeNotFound "other\tx") := by
  let a : Authority := ⟨"app", by decide⟩
  let request : Http.Request :=
    { uri := .absolute "http" a .root, headers := ⟨[("host", Bytes.ofString "other\tx")]⟩ }
  have host : request.namedHost = "other\tx" := by decide
  refine ⟨request, [("app", ["127.0.0.1:1"])], rfl, ⟨9, by decide, by decide⟩, by decide, ⟨rfl, by simp⟩,
    fun draw => ?_⟩
  rw [host]
  rfl

end SharedBalancer
end ForwardProxy.Balancer
