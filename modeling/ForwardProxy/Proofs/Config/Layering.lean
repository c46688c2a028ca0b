import ForwardProxy.Config.Setting

/-!
# The laws of layers

What a stack of layers says can be told from the layers one by one: of a setting the last value given
to it, of a host the backends in the last layer that has a route for it, and of the hosts to be loaded
in advance every one, at the place where it comes first. Laying layers over one another is associative,
a layer that says nothing changes nothing, and nor does one that is laid twice.

* `setting?_merge`, `backends?_merge`: a setting and the backends of a host are the later of two values. That is all
  that `last_of_stack` needs to know of a view of layers, so one induction on the stack serves both.
* `foldl_addNew`: gathered hosts are the old ones and then each new one where it comes first.
* `merge_assoc`, `merge_empty`, `merge_self`: the laws of `merge`. Two layers are equal if they agree on every
  setting, on the hosts and on the routes (`ext_setting?`), and each of the three is a law of its own.
* `layers_override`: all of it.

Hosts are gathered and routes are replaced by going through a list and putting one member after the
other into another list. The laws of both follow from what putting one member in does: `foldl_foldl` reduces
associativity to a last list of one member, for any way of putting members in.

## Side conditions

A layer is `Proper` if it has one route at most for each host, as a table in a file has. It is asked of a layer that
is laid over another: with two routes for one host, the later one would count when the layer is laid over a second
one, and the earlier one when it is looked up by itself. Merging keeps it (`Proper.merge`), so a stack of proper layers
is proper. The lowest layer of an associative law, and the highest, may be any.
-/

namespace ForwardProxy.Config

/-! ## Putting lists into lists -/

section Put

variable {α : Type} {put : List α → α → List α}

/-- Members that change nothing can be put in again. -/
theorem foldl_eq_self {ys xs : List α} (h : ∀ x ∈ xs, put ys x = ys) : xs.foldl put ys = ys := by
  induction xs with
  | nil => rfl
  | cons x xs ih =>
    rw [List.foldl_cons, h x List.mem_cons_self]
    exact ih fun y hy => h y (List.mem_cons_of_mem x hy)

/-- Putting lists into lists is associative if the last list has one member, and so for any last
list. `Good` is what the list in the middle has to be and stays. -/
theorem foldl_foldl (Good : List α → Prop) (good : ∀ ys x, Good ys → Good (put ys x))
    (one : ∀ xs ys x, Good ys → (put ys x).foldl put xs = put (ys.foldl put xs) x)
    (xs zs : List α) {ys : List α} (hys : Good ys) :
    (zs.foldl put ys).foldl put xs = zs.foldl put (ys.foldl put xs) := by
  induction zs generalizing ys with
  | nil => rfl
  | cons z zs ih => rw [List.foldl_cons, List.foldl_cons, ih (good ys z hys), one xs ys z hys]

end Put

/-! ## Hosts -/

section Hosts

variable {hosts old : List String} {host h : String}

theorem addNew_of_mem (hm : host ∈ old) : addNew old host = old := by
  simp [addNew, hm]

theorem addNew_of_not_mem (hm : host ∉ old) : addNew old host = old ++ [host] := by
  simp [addNew, hm]

theorem mem_addNew : h ∈ addNew old host ↔ h ∈ old ∨ h = host := by
  by_cases hm : host ∈ old
  · rw [addNew_of_mem hm]
    constructor
    · exact .inl
    · rintro (hh | rfl)
      · exact hh
      · exact hm
  · simp [addNew_of_not_mem hm]

theorem mem_foldl_addNew : h ∈ hosts.foldl addNew old ↔ h ∈ old ∨ h ∈ hosts := by
  induction hosts generalizing old with
  | nil => simp
  | cons host hosts ih => rw [List.foldl_cons, ih, mem_addNew, List.mem_cons, or_assoc]

/-- Gathered hosts are those that are new, each where it comes first. -/
theorem foldl_addNew (old hosts : List String) :
    hosts.foldl addNew old = old ++ (hosts.removeAll old).eraseDups := by
  induction hosts generalizing old with
  | nil => simp [List.removeAll]
  | cons host hosts ih =>
    rw [List.foldl_cons, ih]
    by_cases hm : host ∈ old
    · rw [addNew_of_mem hm]
      simp [List.removeAll, hm]
    · rw [addNew_of_not_mem hm, List.append_assoc]
      have rest : hosts.removeAll (old ++ [host]) =
          (hosts.removeAll old).filter fun h => !h == host := by
        simp only [List.removeAll, List.filter_filter]
        refine List.filter_congr fun h _ => ?_
        by_cases he : h = host <;> simp [he]
      have first : (host :: hosts).removeAll old = host :: hosts.removeAll old := by
        simp [List.removeAll, hm]
      rw [rest, first, List.eraseDups_cons, List.singleton_append]

/-- Where every host has been gathered once, none stands twice. -/
theorem nodup_foldl_addNew (hold : old.Nodup) : (hosts.foldl addNew old).Nodup := by
  induction hosts generalizing old with
  | nil => exact hold
  | cons host hosts ih =>
    rw [List.foldl_cons]
    apply ih
    by_cases hm : host ∈ old
    · rwa [addNew_of_mem hm]
    · rw [addNew_of_not_mem hm]
      exact List.nodup_append.mpr ⟨hold, by simp, fun x hx y hy he =>
        hm (List.mem_singleton.mp hy ▸ he ▸ hx)⟩

theorem foldl_addNew_addNew (xs ys : List String) (host : String) :
    (addNew ys host).foldl addNew xs = addNew (ys.foldl addNew xs) host := by
  by_cases hm : host ∈ ys
  · rw [addNew_of_mem hm, addNew_of_mem (mem_foldl_addNew.mpr (.inr hm))]
  · rw [addNew_of_not_mem hm, List.foldl_append, List.foldl_cons, List.foldl_nil]

end Hosts

/-! ## Routes -/

section Routes

open Balancer (Routes)

variable {rs new : Routes} {r : String × List String}

theorem keys_setRoute_of_mem (h : r.1 ∈ rs.map Prod.fst) :
    (setRoute rs r).map Prod.fst = rs.map Prod.fst := by
  induction rs with
  | nil => cases h
  | cons x rs ih =>
    rw [setRoute]
    split
    · rename_i hx
      simp [hx]
    · rename_i hx
      have hmem : r.1 ∈ rs.map Prod.fst := by
        rcases List.mem_cons.mp h with hr | hr
        · exact absurd hr.symm hx
        · exact hr
      rw [List.map_cons, List.map_cons, ih hmem]

theorem setRoute_of_not_mem (h : r.1 ∉ rs.map Prod.fst) : setRoute rs r = rs ++ [r] := by
  induction rs with
  | nil => rfl
  | cons x rs ih =>
    rw [List.map_cons, List.mem_cons, not_or] at h
    rw [setRoute, if_neg (Ne.symm h.1), ih h.2, List.cons_append]

/-- Every host keeps one route at most. -/
theorem nodup_setRoute (h : (rs.map Prod.fst).Nodup) (r : String × List String) :
    ((setRoute rs r).map Prod.fst).Nodup := by
  by_cases hm : r.1 ∈ rs.map Prod.fst
  · rwa [keys_setRoute_of_mem hm]
  · rw [setRoute_of_not_mem hm, List.map_append]
    exact List.nodup_append.mpr ⟨h, by simp, fun x hx y hy he =>
      hm (List.mem_singleton.mp hy ▸ he ▸ hx)⟩

theorem mem_keys_setRoute {host : String} :
    host ∈ (setRoute rs r).map Prod.fst ↔ host ∈ rs.map Prod.fst ∨ host = r.1 := by
  by_cases hm : r.1 ∈ rs.map Prod.fst
  · rw [keys_setRoute_of_mem hm]
    constructor
    · exact .inl
    · rintro (h | rfl)
      · exact h
      · exact hm
  · rw [setRoute_of_not_mem hm, List.map_append, List.mem_append, List.map_cons, List.map_nil,
      List.mem_singleton]

/-- A route that is there already is put in without effect. -/
theorem setRoute_of_mem (h : (rs.map Prod.fst).Nodup) (hm : r ∈ rs) : setRoute rs r = rs := by
  induction rs with
  | nil => cases hm
  | cons x rs ih =>
    obtain ⟨hx, hrs⟩ := List.nodup_cons.mp h
    rw [setRoute]
    rcases List.mem_cons.mp hm with rfl | hm
    · rw [if_pos rfl]
    · have hne : x.1 ≠ r.1 := fun he => hx (he ▸ List.mem_map_of_mem hm)
      rw [if_neg hne, ih hrs hm]

/-- Of two routes for one host only the second matters. -/
theorem setRoute_setRoute_of_eq {x : String × List String} (h : x.1 = r.1) :
    setRoute (setRoute rs x) r = setRoute rs r := by
  induction rs with
  | nil => simp [setRoute, h]
  | cons y rs ih =>
    by_cases hy : y.1 = r.1
    · simp [setRoute, hy, h]
    · have hyx : y.1 ≠ x.1 := fun he => hy (he.trans h)
      simp [setRoute, hy, hyx, ih]

/-- A route of one host and a route of another do not depend on which is put in first, if the first
host is there already. -/
theorem setRoute_comm {x : String × List String} (hm : r.1 ∈ rs.map Prod.fst) (h : x.1 ≠ r.1) :
    setRoute (setRoute rs x) r = setRoute (setRoute rs r) x := by
  induction rs with
  | nil => cases hm
  | cons y rs ih =>
    by_cases hy : y.1 = r.1
    · have hyx : y.1 ≠ x.1 := fun he => h (he.symm.trans hy)
      simp [setRoute, hy, Ne.symm h]
    · have hmem : r.1 ∈ rs.map Prod.fst := by
        rcases List.mem_cons.mp hm with hr | hr
        · exact absurd hr.symm hy
        · exact hr
      by_cases hyx : y.1 = x.1
      · simp [setRoute, hyx, h]
      · simp [setRoute, hy, hyx, ih hmem]

/-- A route goes past routes of other hosts, if its own host is there already. -/
theorem foldl_setRoute_setRoute (hm : r.1 ∈ rs.map Prod.fst) (h : r.1 ∉ new.map Prod.fst) :
    new.foldl setRoute (setRoute rs r) = setRoute (new.foldl setRoute rs) r := by
  induction new generalizing rs with
  | nil => rfl
  | cons x new ih =>
    rw [List.map_cons, List.mem_cons, not_or] at h
    have hmem : r.1 ∈ (setRoute rs x).map Prod.fst := mem_keys_setRoute.mpr (.inl hm)
    rw [List.foldl_cons, List.foldl_cons, ← setRoute_comm hm (Ne.symm h.1), ih hmem h.2]

/-- Putting in a list with one route more is putting in the list and then the route. -/
theorem foldl_setRoute (xs ys : Routes) (r : String × List String) (h : (ys.map Prod.fst).Nodup) :
    (setRoute ys r).foldl setRoute xs = setRoute (ys.foldl setRoute xs) r := by
  induction ys generalizing xs with
  | nil => rfl
  | cons y ys ih =>
    obtain ⟨hy, hys⟩ := List.nodup_cons.mp h
    by_cases he : y.1 = r.1
    · rw [setRoute, if_pos he, List.foldl_cons, List.foldl_cons, ← setRoute_setRoute_of_eq he]
      refine foldl_setRoute_setRoute ?_ (he ▸ hy)
      exact mem_keys_setRoute.mpr (.inr he.symm)
    · rw [setRoute, if_neg he, List.foldl_cons, List.foldl_cons, ih (setRoute xs y) hys]

theorem lookUp_setRoute (rs : Routes) (r : String × List String) (host : String) :
    lookUp (setRoute rs r) host = if r.1 = host then some r.2 else lookUp rs host := by
  induction rs with
  | nil => by_cases h : r.1 = host <;> simp [setRoute, lookUp, h]
  | cons x rs ih =>
    simp only [lookUp] at ih
    by_cases hx : x.1 = r.1
    · by_cases h : r.1 = host
      · simp [setRoute, lookUp, hx, h]
      · simp [setRoute, lookUp, hx, h]
    · by_cases h : r.1 = host
      · have hne : x.1 ≠ host := fun he => hx (he.trans h.symm)
        rw [setRoute, if_neg hx]
        simp [lookUp, h, hne, ih]
      · rw [setRoute, if_neg hx]
        by_cases hxh : x.1 = host
        · simp [lookUp, h, hxh]
        · simp [lookUp, h, hxh, ih]

theorem lookUp_eq_none_of_not_mem {host : String} (h : host ∉ rs.map Prod.fst) :
    lookUp rs host = none := by
  simp only [lookUp, Option.map_eq_none_iff, List.find?_eq_none, decide_eq_true_eq]
  intro r hr he
  exact h (he ▸ List.mem_map_of_mem hr)

/-- Of two lists of routes the later one counts for the hosts that it mentions. -/
theorem lookUp_foldl (rs : Routes) (h : (new.map Prod.fst).Nodup) (host : String) :
    lookUp (new.foldl setRoute rs) host = later (lookUp rs host) (lookUp new host) := by
  induction new generalizing rs with
  | nil => rfl
  | cons r new ih =>
    obtain ⟨hr, hnew⟩ := List.nodup_cons.mp h
    rw [List.foldl_cons, ih (setRoute rs r) hnew, lookUp_setRoute]
    by_cases he : r.1 = host
    · subst he
      rw [lookUp_eq_none_of_not_mem hr]
      simp [lookUp, later]
    · simp [lookUp, he]

end Routes

/-! ## Layers -/

namespace Layer

variable {a b c : Layer} {ls : List Layer}

/-- A layer is its settings, its hosts and its routes. -/
theorem ext_setting? (hs : ∀ s, a.setting? s = b.setting? s) (hp : a.preloaded = b.preloaded)
    (hr : a.balancer.routes = b.balancer.routes) : a = b := by
  obtain ⟨⟨_, _, _, _, _, _, _, _⟩, ⟨_, _, _, _, _⟩, ⟨_⟩, ⟨_, _⟩⟩ := a
  obtain ⟨⟨_, _, _, _, _, _, _, _⟩, ⟨_, _, _, _, _⟩, ⟨_⟩, ⟨_, _⟩⟩ := b
  simp only [mk.injEq, ProxyOptions.mk.injEq, InterceptorOptions.mk.injEq, ModerationOptions.mk.injEq,
    BalancerOptions.mk.injEq]
  exact ⟨⟨hs .host, hs .port, hs .agent, hs .useEnvProxy, hs .loopTestUrl, hs .timeout, hs .tlsCert,
    hs .tlsKey⟩, ⟨hs .intercept, hs .caCert, hs .caKey, hs .hostCertDir, hp⟩, hs .moderate,
    hs .strategy, hr⟩

theorem setting?_merge (a b : Layer) (s : Setting) :
    (a.merge b).setting? s = later (a.setting? s) (b.setting? s) := by
  cases s <;> rfl

theorem preloaded_merge (a b : Layer) :
    (a.merge b).preloaded = b.preloaded.foldl addNew a.preloaded := rfl

theorem routes_merge (a b : Layer) :
    (a.merge b).balancer.routes = b.balancer.routes.foldl setRoute a.balancer.routes := rfl

theorem backends?_merge (a : Layer) (hb : b.Proper) (host : String) :
    (a.merge b).backends? host = later (a.backends? host) (b.backends? host) :=
  lookUp_foldl a.balancer.routes hb host

theorem proper_empty : Proper {} := List.nodup_nil

theorem Proper.merge (ha : a.Proper) (b : Layer) : (a.merge b).Proper := by
  rw [Proper, routes_merge]
  generalize b.balancer.routes = new
  rw [Proper] at ha
  revert ha
  generalize a.balancer.routes = rs
  intro ha
  induction new generalizing rs with
  | nil => exact ha
  | cons r new ih => exact ih (setRoute rs r) (nodup_setRoute ha r)

/-! ## Laws -/

theorem later_later {α : Type} (x y z : Option α) : later (later x y) z = later x (later y z) := by
  cases z <;> rfl

theorem later_none {α : Type} (x : Option α) : later none x = x := by
  cases x <;> rfl

theorem merge_assoc (a : Layer) (hb : b.Proper) (c : Layer) :
    (a.merge b).merge c = a.merge (b.merge c) := by
  apply ext_setting?
  · intro s
    simp only [setting?_merge, later_later]
  · simp only [preloaded_merge]
    exact (foldl_foldl (fun _ => True) (fun _ _ _ => trivial)
      (fun xs ys host _ => foldl_addNew_addNew xs ys host) a.preloaded c.preloaded trivial).symm
  · simp only [routes_merge]
    exact (foldl_foldl (fun rs => (rs.map Prod.fst).Nodup) (fun ys r hys => nodup_setRoute hys r)
      foldl_setRoute a.balancer.routes c.balancer.routes hb).symm

theorem merge_empty (a : Layer) : a.merge {} = a := by
  apply ext_setting?
  · intro s
    rw [setting?_merge]
    cases s <;> rfl
  · rfl
  · rfl

theorem merge_self (hb : b.Proper) : b.merge b = b := by
  apply ext_setting?
  · intro s
    rw [setting?_merge]
    cases b.setting? s <;> rfl
  · exact foldl_eq_self fun host hm => addNew_of_mem hm
  · exact foldl_eq_self fun r hm => setRoute_of_mem hb hm

theorem merge_merge_self (a : Layer) (hb : b.Proper) : (a.merge b).merge b = a.merge b := by
  rw [merge_assoc a hb, merge_self hb]

/-! ## Stacks -/

/-- Of what every layer may override, a stack says what the last layer says that says anything. -/
theorem last_of_stack {α : Type} (view : Layer → Option α)
    (hview : ∀ a, ∀ b ∈ ls, view (a.merge b) = later (view a) (view b)) (base : Layer) :
    view (ls.foldl merge base) = later (view base) (ls.filterMap view).getLast? := by
  induction ls generalizing base with
  | nil => rfl
  | cons l ls ih =>
    rw [List.foldl_cons, ih (fun a b hb => hview a b (List.mem_cons_of_mem l hb)),
      hview base l List.mem_cons_self, later_later]
    congr 1
    cases hl : view l with
    | none => rw [List.filterMap_cons_none hl]; cases (ls.filterMap view).getLast? <;> rfl
    | some v => rw [List.filterMap_cons_some hl, List.getLast?_cons]; cases (ls.filterMap view).getLast? <;> rfl

theorem preloaded_foldl (ls : List Layer) (base : Layer) :
    (ls.foldl merge base).preloaded = (ls.flatMap preloaded).foldl addNew base.preloaded := by
  induction ls generalizing base with
  | nil => rfl
  | cons l ls ih => rw [List.foldl_cons, ih, preloaded_merge, List.flatMap_cons, List.foldl_append]

/-- What holds of a stack and of laying layers over one another. -/
structure Laws (ls : List Layer) (a b c : Layer) : Prop where
  /-- The last layer counts that has a value. -/
  setting : ∀ s, (stack ls).setting? s = (ls.filterMap fun l => l.setting? s).getLast?
  /-- Every host stands where it comes first. -/
  preloaded : (stack ls).preloaded = (ls.flatMap Layer.preloaded).eraseDups
  preloaded_nodup : (stack ls).preloaded.Nodup
  /-- The last layer counts that mentions the host, with all its backends. -/
  backends : ∀ host, (stack ls).backends? host = (ls.filterMap fun l => l.backends? host).getLast?
  proper : (stack ls).Proper
  assoc : (a.merge b).merge c = a.merge (b.merge c)
  empty : a.merge {} = a
  twice : (a.merge b).merge b = a.merge b

/-- Layers of configuration keep the laws of layering. -/
theorem layers_override (ls : List Layer) (hls : ∀ l ∈ ls, l.Proper) (a b c : Layer) (hb : b.Proper) :
    Laws ls a b c where
  setting s := by
    rw [stack, last_of_stack (fun l => l.setting? s) fun a b _ => setting?_merge a b s]
    cases s <;> exact later_none _
  preloaded := by
    rw [stack, preloaded_foldl, foldl_addNew]
    have all : ∀ hosts : List String, hosts.removeAll [] = hosts := by simp [List.removeAll]
    exact congrArg List.eraseDups (all _)
  preloaded_nodup := by
    rw [stack, preloaded_foldl]
    exact nodup_foldl_addNew List.nodup_nil
  backends host := by
    rw [stack, last_of_stack (fun l => l.backends? host) fun a b hb =>
      backends?_merge a (hls b hb) host]
    exact later_none _
  proper := by
    rw [stack]
    exact List.foldlRecOn ls merge proper_empty fun _ ha b _ => ha.merge b
  assoc := merge_assoc a hb c
  empty := merge_empty a
  twice := merge_merge_self a hb

/-- A layer as an administrator may write it. -/
def systemLayer : Layer where
  proxy := { port := some 3128, agent := some "Gate/1" }
  interceptor := { enabled := some true, preloadHosts := ["a.test", "a.test", "b.test"] }
  balancer := { strategy := some .random, routes := [("one", ["1:1", "1:2"]), ("two", ["2:1"])] }

/-- A layer that overrides some of it. -/
def userLayer : Layer where
  proxy := { port := some 8080 }
  interceptor := { enabled := some false, preloadHosts := ["c.test", "b.test"] }
  balancer := { routes := [("three", ["3:1"]), ("one", ["1:9"])] }

theorem layers_override_user : systemLayer.Proper ∧ userLayer.Proper ∧
    Laws [systemLayer, userLayer] systemLayer userLayer systemLayer ∧
    (stack [systemLayer, userLayer]).setting? .port = some (8080 : Nat) ∧
    (stack [systemLayer, userLayer]).preloaded = ["a.test", "b.test", "c.test"] ∧
    (stack [systemLayer, userLayer]).backends? "one" = some ["1:9"] := by
  have system : systemLayer.Proper := by simp [Proper, systemLayer]
  have user : userLayer.Proper := by simp [Proper, userLayer]
  have laws := layers_override [systemLayer, userLayer] (by simp [system, user]) systemLayer userLayer
    systemLayer user
  exact ⟨system, user, laws, laws.setting .port, laws.preloaded.trans (by decide),
    (laws.backends "one").trans (by decide)⟩

end Layer
end ForwardProxy.Config
