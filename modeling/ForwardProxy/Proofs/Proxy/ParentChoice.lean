import ForwardProxy.Proofs.Proxy.Dialing
import ForwardProxy.Proofs.Proxy.ParentNames
import ForwardProxy.Proxy.Settings

/-!
# The choice of a parent proxy

The transport is settled in two steps: the parent proxies of the environment are tried out, if they are wanted and a
test URL is set (`Settings.probed`), and then they are used, unless they have been found to lead back here
(`Settings.chosen`). So the proxy for a request is told by the variables of its own scheme alone, while a loop is a
reason against both proxies, and a check that cannot be made against none. The world is any in which things can be
done one after the other; whatever comes of them is a part of it.

* `Parents.forScheme_ofEnvironment`: the variables for a scheme, in their order.
* `LoopProbe.check_eq_ok_true_iff`: a loop is found just when the probe can listen and hears its own token.
* `proxyFor_chosen_eq_some_iff`: the proxy for an origin, by the three conditions on it.
* `exists_isNormal`: the text for a proxy and the proxy that it names.
* `requests_travel_as_chosen`: for any settings and world, how a request gets to its origin.

## Side conditions

`carried` is about targets that are named, with one of the two schemes and a host, and `refused` about those without
one of them. A target whose authority has nothing in the place of its host is in neither, as in the module on what a
round trip dials.

A proxy that is named is still not always used, for two reasons (`proxies_are_not_always_used`). Its name can be too
long to be read again when it is printed; `again` and `tooLong` divide at that length. And for an encrypted request
nothing at all is dialed if the host is no name of a TLS server, which `dialed` leaves to `Transport.dialed`.
-/

namespace ForwardProxy.Proxy

/-! ## The environment -/

namespace Parents

/-- The proxy that the environment names for a scheme. -/
def named (env : String → Option String) (https : Bool) : Option Uri :=
  (if https then setting env "HTTPS_PROXY" "https_proxy" else setting env "HTTP_PROXY" "http_proxy").bind readProxy

/-- The proxy for a scheme is told by the variables of that scheme. -/
theorem forScheme_ofEnvironment (env : String → Option String) (https : Bool) :
    (ofEnvironment env).bind (·.forScheme https) = named env https := by
  have found : ofEnvironment env =
      if (named env false).isNone && (named env true).isNone then none
      else some ⟨named env false, named env true⟩ := rfl
  rw [found]
  split
  · rename_i nothing
    rw [Bool.and_eq_true, Option.isNone_iff_eq_none, Option.isNone_iff_eq_none] at nothing
    cases https
    · exact nothing.1.symm
    · exact nothing.2.symm
  · cases https <;> rfl

end Parents

/-! ## The choice -/

namespace Settings

variable {m : Type → Type} [Monad m]

/-- The parent proxies that are tried out. -/
def candidates (s : Settings) (env : String → Option String) : Option Parents :=
  if s.useEnvProxy then Parents.ofEnvironment env else none

/-- What a check for a loop comes to, if there is one. -/
def probed (net : Network m) (listener : LoopProbe.Listener m) (env : String → Option String) (random : Bytes)
    (s : Settings) (checkLoop : Bool) : m (Option (Except Error Bool)) :=
  match s.candidates env, checkLoop, s.loopTestUrl with
  | some parents, true, some testUrl =>
    some <$> LoopProbe.check net listener { s.directTransport with parents := some parents } random s.port testUrl
  | _, _, _ => pure none

/-- The transport behind a check. -/
def chosen (s : Settings) (env : String → Option String) (found : Option (Except Error Bool)) : Transport :=
  { s.directTransport with parents := if found = some (.ok true) then none else s.candidates env }

theorem transport_eq_chosen [LawfulMonad m] (net : Network m) (listener : LoopProbe.Listener m)
    (env : String → Option String) (random : Bytes) (s : Settings) (checkLoop : Bool) :
    s.transport net listener env random checkLoop =
      s.chosen env <$> s.probed net listener env random checkLoop := by
  cases wanted : s.useEnvProxy with
  | false =>
    have unwanted : s.candidates env = .none := by rw [candidates, wanted]; rfl
    simp only [transport, probed, chosen, wanted, unwanted, map_pure]
    rfl
  | true =>
    have considered : s.candidates env = Parents.ofEnvironment env := by rw [candidates, wanted]; rfl
    cases found : Parents.ofEnvironment env with
    | none =>
      simp only [transport, probed, chosen, wanted, considered, found, map_pure]
      rfl
    | some parents =>
      cases checkLoop with
      | false =>
        simp only [transport, probed, chosen, wanted, considered, found, map_pure]
        rfl
      | true =>
        cases url : s.loopTestUrl with
        | none =>
          simp only [transport, probed, chosen, wanted, considered, found, url, map_pure]
          rfl
        | some testUrl =>
          simp only [transport, probed, wanted, considered, found, url, map_eq_pure_bind, bind_assoc, pure_bind]
          refine bind_congr fun result => ?_
          simp only [chosen, considered, found]
          rcases result with e | (_ | _) <;> rfl

end Settings

section

variable {World : Type} {net : Network (StateM World)} {listener : LoopProbe.Listener (StateM World)}
  {env : String → Option String} {random : Bytes} {s : Settings} {checkLoop : Bool} {world : World}

namespace LoopProbe

/-- The targets of the requests that have arrived when a check is over. -/
def arrivals (net : Network (StateM World)) (listener : Listener (StateM World)) (t : Transport) (random : Bytes)
    (port : Nat) (testUrl : String) (world : World) : List Uri :=
  let bound := ((listener.bind port).run world).2
  let requested := match Uri.parse? (url testUrl (token random)) with
    | some uri => ((t.roundTrip net { uri }).run bound).2
    | none => bound
  (listener.stop.run requested).1

variable {t : Transport} {port : Nat} {testUrl : String}

theorem check_of_unbound {why : String} (unbound : ((listener.bind port).run world).1 = .error why) :
    ((check net listener t random port testUrl).run world).1 = .error (.loopCheckBind port why) := by
  generalize bound : (listener.bind port).run world = p at unbound
  simp only [check, StateT.run_bind, bound]
  obtain ⟨result, later⟩ := p
  obtain rfl : result = .error why := unbound
  rfl

theorem check_of_bound (bound : ((listener.bind port).run world).1 = .ok ()) :
    ((check net listener t random port testUrl).run world).1 =
      .ok ((arrivals net listener t random port testUrl world).any (isHit (token random))) := by
  unfold arrivals
  generalize ran : (listener.bind port).run world = p at bound ⊢
  simp only [check, StateT.run_bind, ran]
  obtain ⟨result, later⟩ := p
  obtain rfl : result = .ok () := bound
  cases parsed : Uri.parse? (url testUrl (token random)) <;> rfl

/-- A loop is found just when one can listen and hears the token. -/
theorem check_eq_ok_true_iff : ((check net listener t random port testUrl).run world).1 = .ok true ↔
    ((listener.bind port).run world).1 = .ok () ∧
      ∃ target ∈ arrivals net listener t random port testUrl world, isHit (token random) target = true := by
  cases bound : ((listener.bind port).run world).1 with
  | error why => simp [check_of_unbound bound]
  | ok u => rw [check_of_bound bound, Except.ok.injEq, List.any_eq_true, and_iff_right rfl]

end LoopProbe

/-- The parent proxies are tried out, and a request with the token comes back. -/
def Settings.IsLooped (net : Network (StateM World)) (listener : LoopProbe.Listener (StateM World))
    (env : String → Option String) (random : Bytes) (s : Settings) (checkLoop : Bool) (world : World) : Prop :=
  checkLoop = true ∧ ∃ parents testUrl, s.candidates env = some parents ∧ s.loopTestUrl = some testUrl ∧
    ((listener.bind s.port).run world).1 = .ok () ∧
    ∃ target ∈ LoopProbe.arrivals net listener { s.directTransport with parents := some parents } random s.port
      testUrl world, LoopProbe.isHit (LoopProbe.token random) target = true

theorem probed_eq_ok_true_iff : ((s.probed net listener env random checkLoop).run world).1 = some (.ok true) ↔
    s.IsLooped net listener env random checkLoop world := by
  unfold Settings.probed Settings.IsLooped
  split
  · rename_i parents testUrl found url
    have ran {x : StateM World (Except Error Bool)} : ((some <$> x).run world).1 = some (x.run world).1 := rfl
    rw [ran, Option.some_inj, LoopProbe.check_eq_ok_true_iff]
    constructor
    · rintro ⟨bound, heard⟩
      exact ⟨rfl, parents, testUrl, found, url, bound, heard⟩
    · rintro ⟨-, parents', testUrl', found', url', bound, heard⟩
      obtain rfl := Option.some.inj (found.symm.trans found')
      obtain rfl := Option.some.inj (url.symm.trans url')
      exact ⟨bound, heard⟩
  · rename_i unchecked
    constructor
    · intro unprobed
      cases unprobed
    · rintro ⟨check, parents, testUrl, found, url, -⟩
      exact (unchecked parents testUrl found check url).elim

/-- The proxy for an origin is the one that the environment names for its scheme, if it is wanted at all and no
loop is known of. -/
theorem proxyFor_chosen_eq_some_iff {found : Option (Except Error Bool)} {o : Origin} {proxy : Uri} :
    (s.chosen env found).proxyFor o = some proxy ↔
      s.useEnvProxy = true ∧ Parents.named env o.https = some proxy ∧ found ≠ some (.ok true) := by
  unfold Transport.proxyFor Settings.chosen
  by_cases loop : found = some (.ok true)
  · simp [loop]
  · simp only [loop, if_false, ne_eq, not_false_iff, and_true, Settings.candidates]
    cases s.useEnvProxy with
    | false => simp
    | true => simp [Parents.forScheme_ofEnvironment]

/-! ## Requests on their way -/

/-- How a request gets to its origin, when it is known whether the parent proxies lead back here. -/
structure IsCarried (s : Settings) (env : String → Option String) (loop : Prop) (t : Transport) (r : Http.Request)
    (o : Origin) : Prop where
  origin : Origin.ofUri r.uri = .ok o
  scheme : r.uri.scheme? = some (if o.https then "https" else "http")
  proxyFor : ∀ proxy, t.proxyFor o = some proxy ↔
    s.useEnvProxy = true ∧ Parents.named env o.https = some proxy ∧ ¬ loop
  through : ∀ proxy, t.proxyFor o = some proxy → t.way o =
    if o.https then .tunnelled (Transport.proxyAddress proxy) else .forwarded (Transport.proxyAddress proxy)
  straight : t.proxyFor o = none → t.way o = .direct o.address
  /-- Nothing but the next stop on the way is dialed. -/
  dialed : ∀ {m : Type → Type} [Monad m] [LawfulMonad m] (net : Network m),
    Dials (t.dialed o) (t.roundTrip net.logged r) (t.roundTrip net r)

/-- What a text names is told by the authority in it. -/
structure IsNormal (text : String) (proxy : Uri) (w : Uri.Spelling) : Prop where
  spelled : IsSpelled w (Text.trim text.toList)
  kept : proxy = proxyAt w.authority
  rendered : proxy.render = "http://" ++ w.authority.text ++ "/"
  again : proxy.render.utf8ByteSize ≤ Uri.maxLength → readProxy proxy.render = some proxy
  /-- The slash at the end may be too much. -/
  tooLong : Uri.maxLength < proxy.render.utf8ByteSize → readProxy proxy.render = none

theorem exists_isNormal {text : String} {proxy : Uri} (named : readProxy text = some proxy) :
    ∃ w, IsNormal text proxy w := by
  obtain ⟨w, spelled, rfl⟩ := readProxy_eq_some_iff.mp named
  refine ⟨w, spelled, rfl, render_proxyAt _, fun short => ?_, fun long => ?_⟩
  · rw [readProxy_render, if_pos short]
  · rw [readProxy_render, if_neg (Nat.not_le.mpr long)]

/-- How a transport is chosen from the environment, and how a request travels over it. -/
structure IsRouted (net : Network (StateM World)) (listener : LoopProbe.Listener (StateM World))
    (env : String → Option String) (random : Bytes) (s : Settings) (checkLoop : Bool) (world : World)
    (t : Transport) (r : Http.Request) : Prop where
  /-- A loop is a reason against all of them. -/
  looped : s.IsLooped net listener env random checkLoop world → t.parents = none
  kept : ¬ s.IsLooped net listener env random checkLoop world → t.parents = s.candidates env
  unbound : ∀ why, ((listener.bind s.port).run world).1 = .error why → t.parents = s.candidates env
  carried : Origin.IsNamed r.uri →
    ∃ o, IsCarried s env (s.IsLooped net listener env random checkLoop world) t r o
  /-- Without a scheme that can be spoken, or without a host, nothing is done. -/
  refused : Origin.IsUnnamed r.uri → ∃ why, ∀ {m : Type → Type} [Monad m] (net : Network m),
    t.roundTrip net r = pure (.error (.invalidRequest why))
  normal : ∀ text proxy, readProxy text = some proxy → ∃ w, IsNormal text proxy w

/-- A request travels through the proxy that the environment names for its scheme, just when proxies are wanted and are
not known to lead back here. -/
theorem requests_travel_as_chosen (net : Network (StateM World)) (listener : LoopProbe.Listener (StateM World))
    (env : String → Option String) (random : Bytes) (s : Settings) (checkLoop : Bool) (world : World)
    (r : Http.Request) :
    IsRouted net listener env random s checkLoop world
      ((s.transport net listener env random checkLoop).run world).1 r := by
  have transport : ((s.transport net listener env random checkLoop).run world).1 =
      s.chosen env ((s.probed net listener env random checkLoop).run world).1 := by
    rw [Settings.transport_eq_chosen]
    rfl
  have loop : ((s.probed net listener env random checkLoop).run world).1 = some (.ok true) ↔
      s.IsLooped net listener env random checkLoop world := probed_eq_ok_true_iff
  rw [transport]
  have kept (free : ¬ s.IsLooped net listener env random checkLoop world) :
      (s.chosen env ((s.probed net listener env random checkLoop).run world).1).parents = s.candidates env :=
    if_neg (mt loop.mp free)
  refine ⟨fun looped => ?_, kept, fun why unbound => kept ?_, fun named => ?_, fun unnamed => ?_,
    fun _ _ => exists_isNormal⟩
  · exact if_pos (loop.mpr looped)
  · rintro ⟨-, parents, testUrl, -, -, bound, -⟩
    rw [unbound] at bound
    cases bound
  · obtain ⟨o, origin, scheme⟩ := Origin.exists_ofUri named
    refine ⟨o, origin, scheme, fun proxy => ?_, fun proxy used => ?_, fun unused => ?_,
      fun net => Transport.dials_roundTrip net origin⟩
    · rw [proxyFor_chosen_eq_some_iff, ne_eq, loop]
    · rw [Transport.way, used]
    · rw [Transport.way, unused]
  · obtain ⟨why, refused⟩ := Transport.roundTrip_of_unnamed unnamed
    exact ⟨why, fun net => refused net _⟩

end

/-- An environment in which capitals count. -/
def proxiedEnvironment : String → Option String
  | "HTTP_PROXY" => some " HTTP://Parent.test:3128/path?query "
  | "http_proxy" => some "other.test"
  | _ => none

/-- A network where nothing answers. -/
def silentNetwork : Network (StateM Unit) where
  Conn := Unit
  connect _ _ := pure (.error "refused")
  secure _ _ := pure (.error "refused")
  send _ _ := pure ()
  gather _ _ := pure ([], .closed)

/-- A listener to whom nothing comes. -/
def lonelyListener : LoopProbe.Listener (StateM Unit) where
  bind _ := pure (.ok ())
  stop := pure []

def plainRequest : Http.Request where
  uri := .absolute "http" ⟨"site.test", by decide⟩ .root

def checkingSettings : Settings where
  useEnvProxy := true
  loopTestUrl := some "http://loop.test/"

theorem requests_travel_as_chosen_plain :
    Origin.ofUri plainRequest.uri = .ok ⟨false, "site.test", 80⟩ ∧
      ((checkingSettings.transport silentNetwork lonelyListener proxiedEnvironment [] true).run ()).1.way
        ⟨false, "site.test", 80⟩ = .forwarded ⟨"Parent.test", 3128⟩ := by
  have routed := requests_travel_as_chosen silentNetwork lonelyListener proxiedEnvironment [] checkingSettings true ()
    plainRequest
  have origin : Origin.ofUri plainRequest.uri = .ok ⟨false, "site.test", 80⟩ := by decide
  refine ⟨origin, ?_⟩
  obtain ⟨o, carried⟩ := routed.carried ⟨by decide, "site.test", by decide, by decide⟩
  obtain rfl := Except.ok.inj (origin.symm.trans carried.origin)
  have proxy : Parents.named proxiedEnvironment false = some (proxyAt ⟨"Parent.test:3128", by decide⟩) := by decide
  have free : ¬ checkingSettings.IsLooped silentNetwork lonelyListener proxiedEnvironment [] true () := by
    rintro ⟨-, parents, testUrl, -, -, -, target, arrived, -⟩
    cases arrived
  rw [carried.through _ ((carried.proxyFor _).mpr ⟨rfl, proxy, free⟩)]
  decide

/-- A parent proxy for encrypted requests. -/
def securedTransport : Transport where
  parents := some ⟨none, some (proxyAt ⟨"parent.test", by decide⟩)⟩

/-- A proxy that is named is not used in every case. What is printed for it can be too long to name it again, because
of the slash at the end (`readProxy_render`); and an encrypted request does not get to it if its host is no name of a
TLS server (`Transport.dialed_eq_nil_iff`), like one that starts with a hyphen. -/
theorem proxies_are_not_always_used :
    (readProxy ("http://" ++ (letters 65526).text) = some (proxyAt (letters 65526)) ∧
      readProxy (proxyAt (letters 65526)).render = none) ∧
    (Origin.ofUri (.absolute "https" ⟨"-a.test", by decide⟩ .root) = .ok ⟨true, "-a.test", 443⟩ ∧
      securedTransport.way ⟨true, "-a.test", 443⟩ = .tunnelled ⟨"parent.test", 80⟩ ∧
      securedTransport.dialed ⟨true, "-a.test", 443⟩ = []) := by
  refine ⟨⟨readProxy_letters (by decide), readProxy_render_letters (by decide)⟩, by decide, by decide, ?_⟩
  exact Transport.dialed_eq_nil_iff.mpr ⟨rfl, by decide⟩

end ForwardProxy.Proxy
