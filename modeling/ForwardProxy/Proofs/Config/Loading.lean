import ForwardProxy.Config.Loading
import ForwardProxy.Proofs.Config.Layering
import ForwardProxy.Proofs.Results
import ForwardProxy.Proofs.Text.Bytes

/-!
# What is loaded

The configuration has its sources in an order: the file of the system, the file of the user, a file that is named and
an address to listen on. Loading fails just when one of them is bad, with what is wrong with the first bad one
(`loadBy_eq_error_iff`). Otherwise it comes to the layers in the files that are there, laid over one another in their
order, and then to what the flags say, which is about four settings and nothing else.

* `Bad read source e`: what may be wrong with a source, one constructor for each fault.
* `add_eq_error_iff`, `add_eq_ok`: one source, added to a layer: it fails if the source is bad, and otherwise comes to
  the layer that `added` says.
* `loadBy_eq`: loading is going through the sources, and then switching on what the flags switch on. The failure of
  the whole follows by the general lemma about series of steps (`foldlM_eq_error_iff`).
* `Flagged`: what the flags make of a layer, with a frame for all other settings, the hosts and the routes.
* `sources_are_layered`: the four parts of `Layered`, for any way of reading files, and so for those of a tree.

The files are read through a parameter, since what counts is only what each path gives: nothing, a fault, bytes that
are no text, text that is no configuration, or a layer. `found_loadFile` makes this case split once. That a missing
file is no fault unless it is named on the command line is the condition `matters` of the first constructor.

The address of the flags counts as the last source, because a file that is bad is reported before it. The switches for
interception and moderation cannot be bad, and they can only switch on.
-/

namespace ForwardProxy.Config

/-! ## Sources -/

/-- Where options come from that can be bad. -/
inductive Source
  /-- A file, which may have to be there. -/
  | file (path : String) (named : Bool)
  /-- An address to listen on. -/
  | address (text : String)

/-- The paths of the files in their order, and which of the files have to be there. -/
def filesOf (s : Sources) (f : Flags) : List (String × Bool) :=
  (s.system, false) :: (s.user, false) :: (f.config.map (·, true)).toList

/-- The sources in their order. -/
def sourcesOf (s : Sources) (f : Flags) : List Source :=
  (filesOf s f).map (fun file => .file file.1 file.2) ++ (f.listen.map .address).toList

/-- What is wrong with a source. -/
inductive Bad (read : Reader) : Source → Error → Prop
  /-- Only a file that is not named may be missing. -/
  | unreadable {path : String} {named : Bool} {fault : Files.Fault} (failed : read path = .error fault)
      (matters : fault = .notFound → named = true) : Bad read (.file path named) (.unreadable path)
  | notText {path : String} {named : Bool} {content : Bytes} (found : read path = .ok content)
      (other : ∀ text, content ≠ Bytes.ofString text) : Bad read (.file path named) (.unreadable path)
  | malformed {path : String} {named : Bool} {text : String} (found : read path = .ok (Bytes.ofString text))
      (other : Layer.read text = none) : Bad read (.file path named) (.malformed path)
  | address {text : String} (other : Address.readListen text.toList = none) :
      Bad read (.address text) (.invalid "--listen" ("expected HOST:PORT, got '" ++ text ++ "'"))

/-- The layer in a file that is there. -/
def layerAt? (read : Reader) (path : String) : Option Layer :=
  (read path).toOption.bind fun content => (Bytes.utf8? content).bind Layer.read

/-- The layers in the files that are there, in the order of the files. -/
def layersOf (read : Reader) (s : Sources) (f : Flags) : List Layer :=
  (filesOf s f).filterMap fun file => layerAt? read file.1

variable {read : Reader} {s : Sources} {f : Flags} {path text : String} {named : Bool} {content : Bytes}
  {fault : Files.Fault} {e : Error} {l below : Layer} {source : Source}

/-! ## Files -/

/-- What loading a file comes to, and why. -/
inductive Found (read : Reader) (path : String) : Except Error (Option Layer) → Prop
  | missing (failed : read path = .error .notFound) : Found read path (.ok none)
  | unreadable {fault : Files.Fault} (failed : read path = .error fault) (other : fault ≠ .notFound) :
      Found read path (.error (.unreadable path))
  | notText {content : Bytes} (found : read path = .ok content) (other : ∀ text, content ≠ Bytes.ofString text) :
      Found read path (.error (.unreadable path))
  | malformed {text : String} (found : read path = .ok (Bytes.ofString text)) (other : Layer.read text = none) :
      Found read path (.error (.malformed path))
  | layer {text : String} {l : Layer} (found : read path = .ok (Bytes.ofString text))
      (reads : Layer.read text = some l) : Found read path (.ok (some l))

theorem found_loadFile (read : Reader) (path : String) : Found read path (loadFile read path) := by
  unfold loadFile
  split
  · rename_i failed
    exact .missing failed
  · rename_i other failed
    exact .unreadable failed other
  · rename_i content found
    split
    · rename_i unread
      refine .notText found fun text same => ?_
      rw [Bytes.utf8?_eq_some_iff.mpr same] at unread
      cases unread
    · rename_i text utf8
      rw [Bytes.utf8?_eq_some_iff.mp utf8] at found
      split
      · rename_i other
        exact .malformed found other
      · rename_i l reads
        exact .layer found reads

/-- A file that is there and not bad holds a layer. -/
theorem layerAt?_of_layer (found : read path = .ok (Bytes.ofString text)) : layerAt? read path = Layer.read text := by
  simp [layerAt?, found, Except.toOption, Bytes.utf8?_ofString]

theorem layerAt?_of_missing (failed : read path = .error fault) : layerAt? read path = none := by
  simp [layerAt?, failed, Except.toOption]

theorem bad_file_of_error (failed : read path = .error fault) :
    Bad read (.file path named) e ↔ (fault = .notFound → named = true) ∧ e = .unreadable path := by
  constructor
  · rintro (⟨failed', matters⟩ | ⟨found, -⟩ | ⟨found, -⟩)
    · rw [failed] at failed'
      cases failed'
      exact ⟨matters, rfl⟩
    · cases failed.symm.trans found
    · cases failed.symm.trans found
  · rintro ⟨matters, rfl⟩
    exact .unreadable failed matters

theorem bad_file_of_notText (found : read path = .ok content) (other : ∀ text, content ≠ Bytes.ofString text) :
    Bad read (.file path named) e ↔ e = .unreadable path := by
  constructor
  · rintro (⟨failed, -⟩ | - | ⟨found', -⟩)
    · cases found.symm.trans failed
    · rfl
    · exact absurd (Except.ok.inj (found.symm.trans found')) (other _)
  · rintro rfl
    exact .notText found other

theorem bad_file_of_text (found : read path = .ok (Bytes.ofString text)) :
    Bad read (.file path named) e ↔ Layer.read text = none ∧ e = .malformed path := by
  constructor
  · rintro (⟨failed, -⟩ | ⟨found', other⟩ | ⟨found', other⟩)
    · cases found.symm.trans failed
    · exact absurd (Except.ok.inj (found'.symm.trans found)) (other text)
    · obtain rfl := Bytes.ofString_injective (Except.ok.inj (found.symm.trans found'))
      exact ⟨other, rfl⟩
  · rintro ⟨other, rfl⟩
    exact .malformed found other

/-! ## Adding a source -/

/-- The address to listen on is set. -/
def Layer.listening (l : Layer) (a : HostPort) : Layer :=
  { l with proxy := { l.proxy with host := some a.host, port := some a.port } }

/-- What a source has to say is laid over a layer. -/
def add (read : Reader) (below : Layer) : Source → Except Error Layer
  | .file path named => if named then addNamedFile read below path else addFile read below path
  | .address text =>
    match Address.readListen text.toList with
    | some a => .ok (below.listening a)
    | none => .error (.invalid "--listen" ("expected HOST:PORT, got '" ++ text ++ "'"))

/-- What a layer comes to with a source that is not bad. -/
def added (read : Reader) (below : Layer) : Source → Layer
  | .file path _ => ((layerAt? read path).map below.merge).getD below
  | .address text => ((Address.readListen text.toList).map below.listening).getD below

theorem add_eq_error_iff (read : Reader) (below : Layer) (source : Source) (e : Error) :
    add read below source = .error e ↔ Bad read source e := by
  cases source with
  | file path named =>
    have found := found_loadFile read path
    generalize loaded : loadFile read path = result at found
    simp only [add, addNamedFile, addFile, loaded]
    cases found with
    | missing failed =>
      rw [bad_file_of_error failed]
      cases named <;> simp [bind, Except.bind, pure, Except.pure, throw, throwThe, MonadExceptOf.throw, eq_comm]
    | unreadable failed other =>
      rw [bad_file_of_error failed]
      cases named <;> simp [bind, Except.bind, other, eq_comm]
    | notText found other =>
      rw [bad_file_of_notText found other]
      cases named <;> simp [bind, Except.bind, eq_comm]
    | malformed found other =>
      rw [bad_file_of_text found]
      cases named <;> simp [bind, Except.bind, other, eq_comm]
    | layer found reads =>
      rw [bad_file_of_text found]
      cases named <;> simp [bind, Except.bind, pure, Except.pure, reads]
  | address text =>
    simp only [add]
    constructor
    · intro failed
      split at failed
      · cases failed
      · rename_i other
        cases failed
        exact .address other
    · rintro ⟨⟩
      rename_i other
      rw [other]

theorem add_eq_ok (read : Reader) (below : Layer) (source : Source) (l : Layer) (h : add read below source = .ok l) :
    l = added read below source := by
  cases source with
  | file path named =>
    have found := found_loadFile read path
    generalize loaded : loadFile read path = result at found
    simp only [add, addNamedFile, addFile, loaded] at h
    rw [added]
    cases found with
    | missing failed =>
      rw [layerAt?_of_missing failed]
      cases named
      · exact (Except.ok.inj h).symm
      · cases h
    | unreadable | notText | malformed => cases named <;> cases h
    | layer found reads =>
      rw [layerAt?_of_layer found, reads]
      cases named <;> exact (Except.ok.inj h).symm
  | address text =>
    simp only [add] at h
    rw [added]
    split at h
    · rename_i a reads
      rw [reads]
      exact (Except.ok.inj h).symm
    · cases h

/-! ## Loading -/

/-- Interception and moderation are switched on, as far as the flags say so. -/
def Flags.switch (f : Flags) (l : Layer) : Layer :=
  { l with
    interceptor := { l.interceptor with enabled := if f.intercept then some true else l.interceptor.enabled }
    moderation := { l.moderation with enabled := if f.moderate then some true else l.moderation.enabled } }

/-- The layer of the flags sets the address and the switches. -/
theorem merge_layer (read : Reader) (f : Flags) (l : Layer) :
    (f.layer >>= fun flags => pure (l.merge flags)) =
      (f.listen.map .address).toList.foldlM (add read) l >>= fun l => .ok (f.switch l) := by
  obtain ⟨config, listen, intercept, moderate⟩ := f
  have switches (a : Option HostPort) :
      l.merge {
        proxy := { host := a.map HostPort.host, port := a.map HostPort.port }
        interceptor := { enabled := if intercept then some true else none }
        moderation := { enabled := if moderate then some true else none } } =
      Flags.switch ⟨config, listen, intercept, moderate⟩ ((a.map l.listening).getD l) := by
    cases a <;> cases intercept <;> cases moderate <;> rfl
  cases listen with
  | none => exact congrArg Except.ok (switches none)
  | some text =>
    unfold Flags.layer
    cases reads : Address.readListen text.toList with
    | none => simp [add, reads, bind, Except.bind, throw, throwThe, MonadExceptOf.throw]
    | some a => simpa [add, reads, bind, Except.bind, pure, Except.pure] using switches (some a)

/-- Loading goes through the sources and then switches on what is to be on. -/
theorem loadBy_eq (read : Reader) (s : Sources) (f : Flags) :
    loadBy read s f = (sourcesOf s f).foldlM (add read) {} >>= fun l => .ok (f.switch l) := by
  have optional (below : Layer) (path : String) : addFile read below path = add read below (.file path false) := rfl
  have named (below : Layer) (path : String) : addNamedFile read below path = add read below (.file path true) := rfl
  unfold loadBy sourcesOf filesOf
  cases f.config <;>
    simp only [merge_layer read, optional, named, Option.map_some, Option.map_none, Option.toList_some,
      Option.toList_none, List.map_cons, List.map_nil, List.cons_append, List.nil_append, List.foldlM_cons, bind_assoc,
      pure_bind]

/-- Loading fails as going through the sources does. -/
theorem loadBy_eq_error_iff : loadBy read s f = .error e ↔ FirstBad (Bad read) (sourcesOf s f) e := by
  have through : (sourcesOf s f).foldlM (add read) {} = .error e ↔ FirstBad (Bad read) (sourcesOf s f) e :=
    foldlM_eq_error_iff (add_eq_error_iff read)
  rw [← through, loadBy_eq]
  cases (sourcesOf s f).foldlM (add read) {} <;> simp [bind, Except.bind]

/-- The files that are there are laid over one another. -/
theorem foldl_added (read : Reader) (files : List (String × Bool)) (l : Layer) :
    (files.map fun file => Source.file file.1 file.2).foldl (added read) l =
      (files.filterMap fun file => layerAt? read file.1).foldl Layer.merge l := by
  induction files generalizing l with
  | nil => rfl
  | cons file files ih =>
    rw [List.map_cons, List.foldl_cons, ih, added]
    cases there : layerAt? read file.1 <;> simp [there]

/-! ## The flags -/

/-- What the flags make of a layer. -/
structure Flagged (f : Flags) (merged l : Layer) : Prop where
  /-- Host and port are set together. -/
  listen : ∀ text, f.listen = some text → ∃ a, Address.readListen text.toList = some a ∧
    l.proxy.host = some a.host ∧ l.proxy.port = some a.port
  unlistened : f.listen = none → l.proxy.host = merged.proxy.host ∧ l.proxy.port = merged.proxy.port
  intercept : l.interceptor.enabled = if f.intercept then some true else merged.interceptor.enabled
  moderate : l.moderation.enabled = if f.moderate then some true else merged.moderation.enabled
  /-- The flags have no say in anything else. -/
  others : ∀ s, s ∉ [Setting.host, .port, .intercept, .moderate] → l.setting? s = merged.setting? s
  preloaded : l.preloaded = merged.preloaded
  routes : l.balancer.routes = merged.balancer.routes

theorem setting?_listening {setting : Setting} (other : setting ∉ [Setting.host, .port, .intercept, .moderate])
    (a : HostPort) : (l.listening a).setting? setting = l.setting? setting := by
  cases setting <;> first | rfl | simp at other

theorem setting?_switch {setting : Setting} (other : setting ∉ [Setting.host, .port, .intercept, .moderate]) :
    (f.switch l).setting? setting = l.setting? setting := by
  cases setting <;> first | rfl | simp at other

theorem flagged_unlistened (h : f.listen = none) (l : Layer) : Flagged f l (f.switch l) where
  listen _ given := nomatch h.symm.trans given
  unlistened _ := ⟨rfl, rfl⟩
  intercept := rfl
  moderate := rfl
  others _ other := setting?_switch other
  preloaded := rfl
  routes := rfl

theorem flagged_listening {a : HostPort} (h : f.listen = some text) (reads : Address.readListen text.toList = some a)
    (l : Layer) : Flagged f l (f.switch (l.listening a)) where
  listen _ given := by
    obtain rfl := Option.some.inj (h.symm.trans given)
    exact ⟨a, reads, rfl, rfl⟩
  unlistened absent := nomatch h.symm.trans absent
  intercept := rfl
  moderate := rfl
  others _ other := (setting?_switch other).trans (setting?_listening other a)
  preloaded := rfl
  routes := rfl

/-! ## What loading comes to -/

/-- What loading comes to. -/
structure Layered (read : Reader) (s : Sources) (f : Flags) (result : Except Error Layer) : Prop where
  fails : (∃ e, result = .error e) ↔ ∃ source ∈ sourcesOf s f, ∃ e, Bad read source e
  /-- The first bad source counts. -/
  error : ∀ e, result = .error e ↔ FirstBad (Bad read) (sourcesOf s f) e
  /-- If no source is bad, no file is left out but those that are missing. -/
  present : (¬ ∃ source ∈ sourcesOf s f, ∃ e, Bad read source e) →
    ∀ file ∈ filesOf s f, layerAt? read file.1 = none ↔ read file.1 = .error .notFound
  loads : (¬ ∃ source ∈ sourcesOf s f, ∃ e, Bad read source e) →
    ∃ l, result = .ok l ∧ Flagged f (Layer.stack (layersOf read s f)) l

/-- If no file is bad, the layers are those of the files that are there. -/
theorem layerAt?_eq_none_iff (good : ∀ e, ¬ Bad read (.file path named) e) :
    layerAt? read path = none ↔ read path = .error .notFound := by
  cases content : read path with
  | error fault =>
    simp only [layerAt?_of_missing content, Except.error.injEq, true_iff]
    by_contra other
    exact good _ (.unreadable content fun same => absurd same other)
  | ok content' =>
    simp only [reduceCtorEq, iff_false]
    by_cases text : ∃ text, content' = Bytes.ofString text
    · obtain ⟨text, rfl⟩ := text
      rw [layerAt?_of_layer content]
      exact fun unread => good _ (.malformed content unread)
    · exact absurd (.notText content (not_exists.mp text)) (good _)

/-- A configuration that is loaded is what the sources and the flags say. -/
theorem flagged_of_loadBy (h : loadBy read s f = .ok l) : Flagged f (Layer.stack (layersOf read s f)) l := by
  rw [loadBy_eq, bind_eq_ok_iff] at h
  obtain ⟨merged, through, switched⟩ := h
  obtain rfl := Except.ok.inj switched
  rw [sourcesOf, List.foldlM_append, bind_eq_ok_iff] at through
  obtain ⟨files, through, listens⟩ := through
  obtain rfl : files = Layer.stack (layersOf read s f) :=
    (foldlM_eq_ok (add_eq_ok read) through).trans (foldl_added read (filesOf s f) {})
  cases listen : f.listen with
  | none =>
    rw [listen] at listens
    obtain rfl := Except.ok.inj listens
    exact flagged_unlistened listen _
  | some text =>
    rw [listen, Option.map_some, Option.toList_some, List.foldlM_cons, bind_eq_ok_iff] at listens
    obtain ⟨merged', reads, same⟩ := listens
    obtain rfl := Except.ok.inj same
    simp only [add] at reads
    split at reads
    · rename_i a here
      obtain rfl := Except.ok.inj reads
      exact flagged_listening listen here _
    · cases reads

/-- Loading goes through its sources in order, stops at the first bad one and else comes to the layers of the files
that are there with what the flags say; so it does when the files are those of a tree. -/
theorem sources_are_layered (read : Reader) (s : Sources) (f : Flags) :
    Layered read s f (loadBy read s f) ∧ ∀ t, Layered (fun path => Files.Tree.read path t) s f (load s f t) := by
  have layered (read : Reader) : Layered read s f (loadBy read s f) := by
    have fails : (∃ e, loadBy read s f = .error e) ↔ ∃ source ∈ sourcesOf s f, ∃ e, Bad read source e := by
      simp only [loadBy_eq_error_iff, exists_firstBad_iff]
    refine ⟨fails, fun e => loadBy_eq_error_iff, fun good file hf => ?_, fun good => ?_⟩
    · refine layerAt?_eq_none_iff fun e bad => good ⟨.file file.1 file.2, ?_, e, bad⟩
      exact List.mem_append_left _ (List.mem_map_of_mem hf)
    · cases result : loadBy read s f with
      | error e => exact absurd (fails.mp ⟨e, result⟩) good
      | ok l => exact ⟨l, rfl, flagged_of_loadBy result⟩
  exact ⟨layered read, fun t => layered _⟩

/-- A named file that is missing counts before an address that cannot be read. -/
example : loadBy (fun _ => .error .notFound) ⟨"/etc/a", "/home/b"⟩ { config := some "c", listen := some "d" } =
    .error (.unreadable "c") := rfl

end ForwardProxy.Config
