import ForeignNamespace.Attribute.Resolution
import ForeignNamespace.Proofs.Conversation
import ForeignNamespace.Proofs.WorldLaws

/-!
Which strategy decides about an attribute.

For each strategy two predicates on exchanges say when it passes and when it decides, and what it
then answers and leaves behind.  Against a host that only answers, an attribute access is the
exchanges of strategies that pass and then those of the first that decides.
-/

namespace ForeignNamespace

/-- The world without the binding of an attribute to a name that is not registered. -/
def World.withoutStale (w : World) (n : NodeId) (attr : String) : World :=
  match (w.node n).cache[attr]? with
  | some (.submodule name) =>
    if (w.lookup (w.node n).registry name).isNone then w.updateNode n (·.unbind attr) else w
  | _ => w

section WithoutStale

variable (w : World) (n : NodeId) (attr : String)

/-- Only the cache of the node can differ. -/
theorem World.withoutStale_cases :
    w.withoutStale n attr = w ∨ w.withoutStale n attr = w.updateNode n (·.unbind attr) := by
  simp only [World.withoutStale]
  split
  · split
    · exact .inr rfl
    · exact .inl rfl
  · exact .inl rfl

theorem World.node_withoutStale (m : NodeId) :
    ∃ cache, (w.withoutStale n attr).node m = { w.node m with cache } := by
  rcases w.withoutStale_cases n attr with h | h
  · exact ⟨(w.node m).cache, by rw [h]⟩
  · rw [h, World.node_updateNode]
    split
    · exact ⟨_, rfl⟩
    · exact ⟨(w.node m).cache, rfl⟩

@[simp] theorem World.name_withoutStale (m : NodeId) :
    ((w.withoutStale n attr).node m).name = (w.node m).name := by
  obtain ⟨cache, h⟩ := w.node_withoutStale n attr m
  rw [h]

@[simp] theorem World.handle_withoutStale (m : NodeId) :
    ((w.withoutStale n attr).node m).handle = (w.node m).handle := by
  obtain ⟨cache, h⟩ := w.node_withoutStale n attr m
  rw [h]

@[simp] theorem World.registry_withoutStale (m : NodeId) :
    ((w.withoutStale n attr).node m).registry = (w.node m).registry := by
  obtain ⟨cache, h⟩ := w.node_withoutStale n attr m
  rw [h]

@[simp] theorem World.enquirer_withoutStale (m : NodeId) :
    ((w.withoutStale n attr).node m).enquirer = (w.node m).enquirer := by
  obtain ⟨cache, h⟩ := w.node_withoutStale n attr m
  rw [h]

@[simp] theorem World.loader_withoutStale (m : NodeId) :
    ((w.withoutStale n attr).node m).loader = (w.node m).loader := by
  obtain ⟨cache, h⟩ := w.node_withoutStale n attr m
  rw [h]

@[simp] theorem World.lookup_withoutStale (r : RegistryId) (name : String) :
    (w.withoutStale n attr).lookup r name = w.lookup r name := by
  rcases w.withoutStale_cases n attr with h | h <;> rw [h]
  rfl

@[simp] theorem World.isAlive_withoutStale (h : Handle) :
    (w.withoutStale n attr).isAlive h = w.isAlive h := by
  rcases w.withoutStale_cases n attr with h | h <;> rw [h]
  rfl

@[simp] theorem World.next_withoutStale :
    (w.withoutStale n attr).nodes.next = w.nodes.next := by
  rcases w.withoutStale_cases n attr with h | h <;> rw [h]
  rfl

@[simp] theorem World.nextNode_withoutStale : (w.withoutStale n attr).nextNode = w.nextNode := by
  rcases w.withoutStale_cases n attr with h | h <;> rw [h]
  rfl

@[simp] theorem World.liveLoader_withoutStale (m : NodeId) :
    (w.withoutStale n attr).liveLoader? m = w.liveLoader? m := by
  simp [World.liveLoader?]

@[simp] theorem World.config_withoutStale (m : NodeId) :
    (w.withoutStale n attr).config m = w.config m := by
  simp only [World.config, World.liveLoader_withoutStale]
  rcases w.withoutStale_cases n attr with h | h <;> rw [h]
  rfl

@[simp] theorem World.nodeClassResolver_withoutStale (m : NodeId) :
    (w.withoutStale n attr).nodeClassResolver? m = w.nodeClassResolver? m := by
  simp only [World.nodeClassResolver?, World.liveLoader_withoutStale]
  rcases w.withoutStale_cases n attr with h | h <;> rw [h]
  rfl

end WithoutStale

/-- The host methods that a strategy may use. -/
def Strategy.uses : Strategy → Query → Prop
  | .cache, _ | .native, _ => False
  | .foreignDelegate, .getAttr .. | .foreignDelegate, .truth _ => True
  | .foreignModule, .loadsModules _ | .foreignModule, .isModule .. => True
  | .foreignModule, .loadModule .. => True
  | .subPackage, .subPackages .. => True
  | .exportMarker, .subPackages .. | .exportMarker, .classNames .. => True
  | .terminal, .resolveClass .. => True
  | _, _ => False

namespace Attribute

/-- The truth of a value, and the exchanges that it takes to find it. -/
inductive Truth : Value → List Exchange → Bool → Prop
  | own {v : Value} {truth : Bool} (known : v.truth? = some truth) : Truth v [] truth
  | asked (o : ObjectId) (truth : Bool) : Truth (.foreign o) [⟨.truth o, truth⟩] truth

/-- Whether an enquirer knows a foreign module, and the exchanges that it takes to find out. -/
inductive KnowsModule (e : EnquirerId) (name : String) : List Exchange → Bool → Prop
  | incapable : KnowsModule e name [⟨.loadsModules e, false⟩] false
  | capable (known : Bool) :
      KnowsModule e name [⟨.loadsModules e, true⟩, ⟨.isModule e name, known⟩] known

section Rules

variable (w : World) (n : NodeId) (attr : String)

/-- A strategy has nothing to say, after these exchanges. -/
inductive Passes : Strategy → List Exchange → Prop
  | unbound (empty : (w.node n).cache[attr]? = none) : Passes .cache []
  | stale {name : String} (bound : (w.node n).cache[attr]? = some (.submodule name))
      (gone : w.lookup (w.node n).registry name = none) : Passes .cache []
  | noHandle (bridgeOnly : (w.node n).handle = none) : Passes .foreignDelegate []
  | missing {o : ObjectId} (backed : (w.node n).handle = some o) :
      Passes .foreignDelegate [⟨.getAttr o attr, .ok none⟩]
  | falsy {o : ObjectId} {v : Value} {talk : List Exchange} (backed : (w.node n).handle = some o)
      (truth : Truth v talk false) :
      Passes .foreignDelegate (⟨.getAttr o attr, .ok (some v)⟩ :: talk)
  | backed {o : ObjectId} (backed : (w.node n).handle = some o) : Passes .native []
  | noMetadata (bridgeOnly : (w.node n).handle = none)
      (other : Node.metadata? (w.node n).name (w.config n) attr = none) : Passes .native []
  | noEnquirer (lacks : (w.node n).enquirer = none) : Passes .foreignModule []
  | noModule {e : EnquirerId} {talk : List Exchange} (has : (w.node n).enquirer = some e)
      (unknown : KnowsModule e (childName (w.node n).name attr) talk false) :
      Passes .foreignModule talk
  | noEnquirerForPackages (lacks : (w.node n).enquirer = none) : Passes .subPackage []
  | noSubPackage {e : EnquirerId} {subPackages : Option (List String)}
      (has : (w.node n).enquirer = some e) (other : attr ∉ subPackages.getD []) :
      Passes .subPackage [⟨.subPackages e (w.node n).name, subPackages⟩]
  | noMarker (other : (w.config n).allMarker ≠ attr) : Passes .exportMarker []
  | noResolver (bridgeOnly : (w.node n).handle = none) (lacks : w.nodeClassResolver? n = none) :
      Passes .terminal []
  | noClass {c : ClassResolverId} (bridgeOnly : (w.node n).handle = none)
      (has : w.nodeClassResolver? n = some c) :
      Passes .terminal [⟨.resolveClass c (childName (w.node n).name attr), .ok none⟩]

/-- A strategy decides after these exchanges: with which result, and which world it leaves. -/
inductive Decides : Strategy → List Exchange → Except ImportError Value → World → Prop
  | value {v : Value} (bound : (w.node n).cache[attr]? = some (.value v)) :
      Decides .cache [] (.ok v) w
  | submodule {name : String} {m : NodeId}
      (bound : (w.node n).cache[attr]? = some (.submodule name))
      (there : w.lookup (w.node n).registry name = some m) : Decides .cache [] (.ok (.node m)) w
  | raised {o : ObjectId} {error : ForeignError} (backed : (w.node n).handle = some o) :
      Decides .foreignDelegate [⟨.getAttr o attr, .error error⟩] (.error (.foreign error))
        (w.withoutStale n attr)
  | truthy {o : ObjectId} {v : Value} {talk : List Exchange}
      (backed : (w.node n).handle = some o) (truth : Truth v talk true) :
      Decides .foreignDelegate (⟨.getAttr o attr, .ok (some v)⟩ :: talk) (.ok v)
        ((w.withoutStale n attr).updateNode n
          (·.bind attr (Binding.ofValue (fun m => (w.node m).name) v)))
  | metadata {v : Value} (bridgeOnly : (w.node n).handle = none)
      (known : Node.metadata? (w.node n).name (w.config n) attr = some v) :
      Decides .native [] (.ok v) (w.withoutStale n attr)
  | moduleThere {e : EnquirerId} {talk : List Exchange} {m : NodeId}
      (has : (w.node n).enquirer = some e)
      (known : KnowsModule e (childName (w.node n).name attr) talk true)
      (there : w.lookup (w.node n).registry (childName (w.node n).name attr) = some m) :
      Decides .foreignModule talk (.ok (.node m))
        (((w.withoutStale n attr).link m (w.node n).loader (w.node n).enquirer).bindSubmodule n
          attr (childName (w.node n).name attr))
  | moduleRaised {e : EnquirerId} {talk : List Exchange} {error : ForeignError}
      (has : (w.node n).enquirer = some e)
      (known : KnowsModule e (childName (w.node n).name attr) talk true)
      (absent : w.lookup (w.node n).registry (childName (w.node n).name attr) = none) :
      Decides .foreignModule
        (talk ++ [⟨.loadModule e (childName (w.node n).name attr), .error error⟩])
        (.error (.foreign error)) (w.withoutStale n attr)
  | moduleLoaded {e : EnquirerId} {talk : List Exchange} {o : ObjectId}
      (has : (w.node n).enquirer = some e)
      (known : KnowsModule e (childName (w.node n).name attr) talk true)
      (absent : w.lookup (w.node n).registry (childName (w.node n).name attr) = none) :
      Decides .foreignModule
        (talk ++ [⟨.loadModule e (childName (w.node n).name attr), .ok o⟩])
        (.ok (.node w.nextNode))
        (((w.withoutStale n attr).addRegistered
          { Node.foreignBacked (childName (w.node n).name attr) (w.node n).registry o with
            loader := (w.node n).loader, enquirer := (w.node n).enquirer }).bindSubmodule n attr
              (childName (w.node n).name attr))
  | subPackageThere {e : EnquirerId} {subPackages : Option (List String)} {m : NodeId}
      (has : (w.node n).enquirer = some e) (listed : attr ∈ subPackages.getD [])
      (there : w.lookup (w.node n).registry (childName (w.node n).name attr) = some m) :
      Decides .subPackage [⟨.subPackages e (w.node n).name, subPackages⟩] (.ok (.node m))
        ((w.withoutStale n attr).bindSubmodule n attr (childName (w.node n).name attr))
  | subPackageMade {e : EnquirerId} {subPackages : Option (List String)}
      (has : (w.node n).enquirer = some e) (listed : attr ∈ subPackages.getD [])
      (absent : w.lookup (w.node n).registry (childName (w.node n).name attr) = none) :
      Decides .subPackage [⟨.subPackages e (w.node n).name, subPackages⟩]
        (.ok (.node w.nextNode))
        (((w.withoutStale n attr).addRegistered
          (Node.bridge (childName (w.node n).name attr) (w.node n).registry (w.node n).loader
            (w.node n).enquirer)).bindSubmodule n attr (childName (w.node n).name attr))
  | emptyExports (marker : (w.config n).allMarker = attr) (lacks : (w.node n).enquirer = none) :
      Decides .exportMarker [] (.ok (.list [])) (w.withoutStale n attr)
  | exports {e : EnquirerId} {subPackages classes : Option (List String)}
      (marker : (w.config n).allMarker = attr) (has : (w.node n).enquirer = some e) :
      Decides .exportMarker
        [⟨.subPackages e (w.node n).name, subPackages⟩, ⟨.classNames e (w.node n).name, classes⟩]
        (.ok (.list ((subPackages.getD [] ++ (classes.getD []).map leafName).map .str)))
        (w.withoutStale n attr)
  | handle {o : ObjectId} (backed : (w.node n).handle = some o) :
      Decides .terminal [] (.ok (.foreign o)) (w.withoutStale n attr)
  | classRaised {c : ClassResolverId} {error : ForeignError}
      (bridgeOnly : (w.node n).handle = none) (has : w.nodeClassResolver? n = some c) :
      Decides .terminal [⟨.resolveClass c (childName (w.node n).name attr), .error error⟩]
        (.error (.foreign error)) (w.withoutStale n attr)
  | classFound {c : ClassResolverId} {handle : ClassHandle}
      (bridgeOnly : (w.node n).handle = none) (has : w.nodeClassResolver? n = some c) :
      Decides .terminal [⟨.resolveClass c (childName (w.node n).name attr), .ok (some handle)⟩]
        (.ok (.classHandle handle))
        ((w.withoutStale n attr).updateNode n (·.bind attr (.value (.classHandle handle))))

/-- Strategies have nothing to say one after the other, after these exchanges in all. -/
def PassesAll : List Strategy → List Exchange → Prop
  | [], talk => talk = []
  | s :: others, talk =>
    ∃ front back, talk = front ++ back ∧ Passes w n attr s front ∧ PassesAll others back

/-- What the answer of one strategy says about it. -/
def Tries (s : Strategy) (talk : List Exchange) :
    Except ImportError Resolution → World → Prop
  | .ok .notFound, w' => Passes w n attr s talk ∧ w' = w.withoutStale n attr
  | .ok (.found value), w' => Decides w n attr s talk (.ok value) w'
  | .error error, w' => error.isNotFound = false ∧ Decides w n attr s talk (.error error) w'

end Rules

section Strategies

variable {w w' : World} {n : NodeId} {attr : String} {talk : List Exchange}
  {answer : Except ImportError Resolution}

theorem tries_cache (live : w.isAlive (.registry (w.node n).registry))
    (h : (Strategy.cache.apply n attr).Talks w talk answer w') :
    Tries w n attr .cache talk answer w' := by
  have hregistry : w.registryOf? n = some (w.node n).registry := by
    simp [World.registryOf?, live]
  simp only [Strategy.apply, NodeId.cached?, bind_assoc, Bridge.talks_world_bind_iff,
    hregistry, Option.bind_some] at h
  cases hbound : (w.node n).cache[attr]? with
  | none =>
      simp only [hbound, pure_bind, Bridge.talks_pure_iff] at h
      obtain ⟨rfl, rfl, rfl⟩ := h
      refine ⟨.unbound hbound, ?_⟩
      simp [World.withoutStale, hbound]
  | some binding =>
      cases binding with
      | value v =>
          simp only [hbound, pure_bind, Bridge.talks_pure_iff] at h
          obtain ⟨rfl, rfl, rfl⟩ := h
          exact .value hbound
      | submodule name =>
          cases hthere : w.lookup (w.node n).registry name with
          | some m =>
              simp only [hbound, hthere, pure_bind, Bridge.talks_pure_iff] at h
              obtain ⟨rfl, rfl, rfl⟩ := h
              exact .submodule hbound hthere
          | none =>
              simp only [hbound, hthere, bind_assoc, pure_bind, Bridge.talks_modify_bind_iff,
                Bridge.talks_report_bind_iff, Bridge.talks_pure_iff] at h
              obtain ⟨rfl, rfl, rfl⟩ := h
              refine ⟨.stale hbound hthere, ?_⟩
              simp [World.withoutStale, hbound, hthere]

theorem truth_of_talks {v : Value} {truth : Bool} (h : v.isTruthy.Talks w talk truth w') :
    Truth v talk truth ∧ w' = w := by
  cases v with
  | foreign o =>
      obtain ⟨answer, rest, rfl, rfl, rfl, rfl⟩ := h
      exact ⟨.asked o truth, rfl⟩
  | _ =>
      obtain ⟨rfl, rfl, rfl⟩ := h
      exact ⟨.own rfl, rfl⟩

theorem tries_foreignDelegate
    (h : (Strategy.foreignDelegate.apply n attr).Talks (w.withoutStale n attr) talk answer w') :
    Tries w n attr .foreignDelegate talk answer w' := by
  simp only [Strategy.apply, NodeId.delegate, Bridge.talks_world_bind_iff,
    World.handle_withoutStale] at h
  cases hhandle : (w.node n).handle with
  | none =>
      simp only [hhandle, Bridge.talks_pure_iff] at h
      obtain ⟨rfl, rfl, rfl⟩ := h
      exact ⟨.noHandle hhandle, rfl⟩
  | some o =>
      simp only [hhandle, Bridge.talks_getAttr_bind_iff] at h
      obtain ⟨reply, rest, rfl, h⟩ := h
      rcases reply with error | (_ | v)
      · obtain ⟨rfl, rfl, rfl⟩ := h
        exact ⟨rfl, .raised hhandle⟩
      · obtain ⟨rfl, rfl, rfl⟩ := h
        exact ⟨.missing hhandle, rfl⟩
      · simp only [Bridge.talks_bind_iff] at h
        obtain ⟨front, back, truth, v', rfl, hask, h⟩ := h
        obtain ⟨htruth, rfl⟩ := truth_of_talks hask
        cases truth with
        | false =>
            obtain ⟨rfl, rfl, rfl⟩ := h
            exact ⟨by simpa using Passes.falsy hhandle htruth, rfl⟩
        | true =>
            obtain ⟨rfl, rfl, rfl⟩ := h
            rw [List.append_nil]
            simpa [Tries, NodeId.setAttr] using Decides.truthy hhandle htruth

theorem tries_native
    (h : (Strategy.native.apply n attr).Talks (w.withoutStale n attr) talk answer w') :
    Tries w n attr .native talk answer w' := by
  simp only [Strategy.apply, NodeId.native, bind_assoc, Bridge.talks_world_bind_iff,
    Node.isForeignBacked, World.handle_withoutStale, World.name_withoutStale,
    World.config_withoutStale] at h
  cases hhandle : (w.node n).handle with
  | some o =>
      simp only [hhandle, Option.isSome_some, if_true, pure_bind, Bridge.talks_pure_iff] at h
      obtain ⟨rfl, rfl, rfl⟩ := h
      exact ⟨.backed hhandle, rfl⟩
  | none =>
      simp only [hhandle, Option.isSome_none, Bool.false_eq_true, if_false, pure_bind,
        Bridge.talks_pure_iff] at h
      obtain ⟨rfl, rfl, rfl⟩ := h
      cases hmetadata : Node.metadata? (w.node n).name (w.config n) attr with
      | none => exact ⟨.noMetadata hhandle hmetadata, rfl⟩
      | some v => exact .metadata hhandle hmetadata

theorem knowsModule_of_talks {e : EnquirerId} {name : String} {known : Bool}
    (h : (Host.knowsModule e name).Talks w talk known w') :
    KnowsModule e name talk known ∧ w' = w := by
  simp only [Host.knowsModule, Bridge.talks_loadsModules_bind_iff] at h
  obtain ⟨capable, rest, rfl, h⟩ := h
  cases capable with
  | false =>
      obtain ⟨rfl, rfl, rfl⟩ := h
      exact ⟨.incapable, rfl⟩
  | true =>
      obtain ⟨answer, rest, rfl, rfl, rfl, rfl⟩ := h
      exact ⟨.capable known, rfl⟩

theorem ensureLoaded_talks {r : RegistryId} {e : EnquirerId} {name : String}
    {loaded : Except ForeignError Unit}
    (h : (NodeId.ensureLoaded r e name).Talks w talk loaded w') :
    (∃ m, w.lookup r name = some m ∧ talk = [] ∧ loaded = .ok () ∧ w' = w) ∨
      w.lookup r name = none ∧
        ((∃ error, talk = [⟨.loadModule e name, .error error⟩] ∧ loaded = .error error ∧ w' = w) ∨
          ∃ o, talk = [⟨.loadModule e name, .ok o⟩] ∧ loaded = .ok () ∧
            w' = w.addRegistered (Node.foreignBacked name r o)) := by
  simp only [NodeId.ensureLoaded, RegistryId.contains, bind_assoc, pure_bind,
    Bridge.talks_world_bind_iff] at h
  cases hlookup : w.lookup r name with
  | some m =>
      simp only [hlookup, Option.isSome_some, if_true, Bridge.talks_pure_iff] at h
      obtain ⟨rfl, rfl, rfl⟩ := h
      exact .inl ⟨m, rfl, rfl, rfl, rfl⟩
  | none =>
      simp only [hlookup, Option.isSome_none, Bool.false_eq_true, if_false,
        Bridge.talks_loadModule_bind_iff] at h
      obtain ⟨reply, rest, rfl, h⟩ := h
      cases reply with
      | error error =>
          obtain ⟨rfl, rfl, rfl⟩ := h
          exact .inr ⟨rfl, .inl ⟨error, rfl, rfl, rfl⟩⟩
      | ok o =>
          simp only [Bridge.talks_world_bind_iff, hlookup, Option.isSome_none, Bool.not_false,
            if_true] at h
          obtain ⟨rfl, rfl, rfl⟩ := h
          exact .inr ⟨rfl, .inr ⟨o, rfl, rfl, rfl⟩⟩

theorem adopt_talks {r : RegistryId} {e : EnquirerId} {name : String} {child : NodeId}
    {found : Resolution} (hlookup : w.lookup r name = some child)
    (hname : (w.node child).name = name)
    (h : (n.adopt r e attr name).Talks w talk found w') :
    talk = [] ∧ found = .found (.node child) ∧
      w' = (w.link child (w.node n).loader (some e)).bindSubmodule n attr name := by
  simp only [NodeId.adopt, RegistryId.get, bind_assoc, pure_bind, Bridge.talks_world_bind_iff,
    hlookup, RegistryId.patch, RegistryId.put, NodeId.bindSubmodule,
    Bridge.talks_modify_bind_iff, Bridge.talks_report_bind_iff, Bridge.talks_pure_iff] at h
  obtain ⟨rfl, rfl, rfl⟩ := h
  refine ⟨rfl, rfl, ?_⟩
  have hnamed : ((w.link child (w.node n).loader (some e)).node child).name = name := by
    simpa [World.link] using hname
  have hthere : (w.link child (w.node n).loader (some e)).lookup r name = some child := hlookup
  change ((w.link child (w.node n).loader (some e)).register r
    ((w.link child (w.node n).loader (some e)).node child).name child).bindSubmodule n attr
      name = _
  rw [hnamed, World.register_of_lookup _ _ _ hthere]

/-- Loading a module unless it is registered, and taking its node over. -/
theorem promote_talks {r : RegistryId} {e : EnquirerId} {name : String}
    (here : n.index < w.nodes.next) (named : w.KeyedByName r)
    (h : (do match ← NodeId.ensureLoaded r e name with
             | .error error => return .error (.foreign error)
             | .ok () => return .ok (← n.adopt r e attr name) :
      Bridge (Except ImportError Resolution)).Talks w talk answer w') :
    (∃ m, w.lookup r name = some m ∧ talk = [] ∧ answer = .ok (.found (.node m)) ∧
        w' = (w.link m (w.node n).loader (some e)).bindSubmodule n attr name) ∨
      w.lookup r name = none ∧
        ((∃ error, talk = [⟨.loadModule e name, .error error⟩] ∧
            answer = .error (.foreign error) ∧ w' = w) ∨
          ∃ o, talk = [⟨.loadModule e name, .ok o⟩] ∧ answer = .ok (.found (.node w.nextNode)) ∧
            w' = (w.addRegistered { Node.foreignBacked name r o with
              loader := (w.node n).loader, enquirer := some e }).bindSubmodule n attr name) := by
  simp only [Bridge.talks_bind_iff] at h
  obtain ⟨load, rest, loaded, v, rfl, hload, h⟩ := h
  rcases ensureLoaded_talks hload with
    ⟨m, hthere, rfl, rfl, rfl⟩ | ⟨habsent, ⟨error, rfl, rfl, rfl⟩ | ⟨o, rfl, rfl, rfl⟩⟩
  · simp only [Bridge.talks_bind_iff] at h
    obtain ⟨take, rest, found, u, rfl, htake, h⟩ := h
    obtain ⟨rfl, rfl, rfl⟩ := adopt_talks hthere (named.name_eq hthere) htake
    obtain ⟨rfl, rfl, rfl⟩ := h
    exact .inl ⟨m, hthere, rfl, rfl, rfl⟩
  · obtain ⟨rfl, rfl, rfl⟩ := h
    exact .inr ⟨habsent, .inl ⟨error, rfl, rfl, rfl⟩⟩
  · simp only [Bridge.talks_bind_iff] at h
    obtain ⟨take, rest, found, u, rfl, htake, h⟩ := h
    have hthere : (w.addRegistered (.foreignBacked name r o)).lookup r name = some w.nextNode :=
      w.lookup_addRegistered_self (.foreignBacked name r o)
    have hname : ((w.addRegistered (.foreignBacked name r o)).node w.nextNode).name = name := by
      rw [World.node_addRegistered_self]
      rfl
    obtain ⟨rfl, rfl, rfl⟩ := adopt_talks hthere hname htake
    obtain ⟨rfl, rfl, rfl⟩ := h
    refine .inr ⟨habsent, .inr ⟨o, rfl, rfl, ?_⟩⟩
    rw [World.node_addRegistered_of_lt w here, World.link_addRegistered]

theorem tries_foreignModule (here : n.index < w.nodes.next)
    (live : w.isAlive (.registry (w.node n).registry)) (named : w.KeyedByName (w.node n).registry)
    (h : (Strategy.foreignModule.apply n attr).Talks (w.withoutStale n attr) talk answer w') :
    Tries w n attr .foreignModule talk answer w' := by
  have hregistry : (w.withoutStale n attr).registryOf? n = some (w.node n).registry := by
    simp [World.registryOf?, live]
  simp only [Strategy.apply, NodeId.foreignModule, Bridge.talks_world_bind_iff,
    World.enquirer_withoutStale, World.name_withoutStale] at h
  cases henquirer : (w.node n).enquirer with
  | none =>
      simp only [henquirer, Bridge.talks_pure_iff] at h
      obtain ⟨rfl, rfl, rfl⟩ := h
      exact ⟨.noEnquirer henquirer, rfl⟩
  | some e =>
      simp only [henquirer, Bridge.talks_bind_iff] at h
      obtain ⟨front, back, known, v, rfl, hask, h⟩ := h
      obtain ⟨hknown, rfl⟩ := knowsModule_of_talks hask
      cases known with
      | false =>
          obtain ⟨rfl, rfl, rfl⟩ := h
          exact ⟨by simpa using Passes.noModule henquirer hknown, rfl⟩
      | true =>
          simp only [if_true, Bridge.talks_world_bind_iff, hregistry,
            Bridge.talks_holding_iff] at h
          obtain ⟨v, h, rfl⟩ := h
          have hnamed : ((w.withoutStale n attr).hold (.registry (w.node n).registry)).KeyedByName
              (w.node n).registry :=
            ⟨fun hm => by simpa using named.lt_next (by simpa using hm),
              fun hm => by simpa using named.name_eq (by simpa using hm)⟩
          rcases promote_talks (by simpa using here) hnamed h with
            ⟨m, hthere, rfl, rfl, rfl⟩ | ⟨habsent, ⟨error, rfl, rfl, rfl⟩ | ⟨o, rfl, rfl, rfl⟩⟩
          · have hthere : w.lookup (w.node n).registry (childName (w.node n).name attr) =
                some m := by simpa using hthere
            simpa [Tries, henquirer] using Decides.moduleThere henquirer hknown hthere
          · have habsent : w.lookup (w.node n).registry (childName (w.node n).name attr) =
                none := by simpa using habsent
            refine ⟨rfl, ?_⟩
            simpa using Decides.moduleRaised henquirer hknown habsent
          · have habsent : w.lookup (w.node n).registry (childName (w.node n).name attr) =
                none := by simpa using habsent
            simpa [Tries, henquirer] using Decides.moduleLoaded henquirer hknown habsent

theorem tries_subPackage (live : w.isAlive (.registry (w.node n).registry))
    (h : (Strategy.subPackage.apply n attr).Talks (w.withoutStale n attr) talk answer w') :
    Tries w n attr .subPackage talk answer w' := by
  have hregistry : (w.withoutStale n attr).registryOf? n = some (w.node n).registry := by
    simp [World.registryOf?, live]
  simp only [Strategy.apply, NodeId.subPackage, bind_assoc, Bridge.talks_world_bind_iff,
    World.enquirer_withoutStale, World.name_withoutStale] at h
  cases henquirer : (w.node n).enquirer with
  | none =>
      simp only [henquirer, pure_bind, Bridge.talks_pure_iff] at h
      obtain ⟨rfl, rfl, rfl⟩ := h
      exact ⟨.noEnquirerForPackages henquirer, rfl⟩
  | some e =>
      simp only [henquirer, bind_assoc, Bridge.talks_subPackages_bind_iff] at h
      obtain ⟨subPackages, rest, rfl, h⟩ := h
      by_cases hlisted : attr ∈ subPackages.getD []
      · simp only [List.contains_iff_mem, hlisted, if_true, bind_assoc,
          Bridge.talks_world_bind_iff, hregistry, World.lookup_withoutStale,
          World.loader_withoutStale] at h
        cases hlookup : w.lookup (w.node n).registry (childName (w.node n).name attr) with
        | some m =>
            simp only [hlookup, pure_bind, NodeId.bindSubmodule, bind_assoc,
              Bridge.talks_modify_bind_iff, Bridge.talks_pure_iff] at h
            obtain ⟨rfl, rfl, rfl⟩ := h
            exact .subPackageThere henquirer hlisted hlookup
        | none =>
            simp only [hlookup, RegistryId.makeLoaded, RegistryId.put, NodeId.bindSubmodule,
              pure_bind, bind_assoc, Bridge.talks_create_bind_iff, Bridge.talks_world_bind_iff,
              Bridge.talks_report_bind_iff, Bridge.talks_modify_bind_iff,
              Bridge.talks_pure_iff] at h
            obtain ⟨rfl, rfl, rfl⟩ := h
            have hdecides := Decides.subPackageMade henquirer hlisted hlookup
            rw [henquirer, ← w.nextNode_withoutStale n attr] at hdecides
            exact hdecides
      · simp only [List.contains_iff_mem, hlisted, if_false, pure_bind,
          Bridge.talks_pure_iff] at h
        obtain ⟨rfl, rfl, rfl⟩ := h
        exact ⟨.noSubPackage henquirer hlisted, rfl⟩

theorem tries_exportMarker
    (h : (Strategy.exportMarker.apply n attr).Talks (w.withoutStale n attr) talk answer w') :
    Tries w n attr .exportMarker talk answer w' := by
  simp only [Strategy.apply, NodeId.exportMarker, bind_assoc, Bridge.talks_world_bind_iff,
    World.config_withoutStale, beq_iff_eq] at h
  by_cases hmarker : (w.config n).allMarker = attr
  · simp only [hmarker, if_true, NodeId.listNames, bind_assoc, Bridge.talks_world_bind_iff,
      World.enquirer_withoutStale, World.name_withoutStale] at h
    cases henquirer : (w.node n).enquirer with
    | none =>
        simp only [henquirer, pure_bind, Bridge.talks_pure_iff] at h
        obtain ⟨rfl, rfl, rfl⟩ := h
        exact .emptyExports hmarker henquirer
    | some e =>
        simp only [henquirer, bind_assoc, pure_bind, Bridge.talks_subPackages_bind_iff,
          Bridge.talks_classNames_bind_iff, Bridge.talks_pure_iff] at h
        obtain ⟨subPackages, _, rfl, classes, _, rfl, rfl, rfl, rfl⟩ := h
        exact .exports hmarker henquirer
  · simp only [hmarker, if_false, pure_bind, Bridge.talks_pure_iff] at h
    obtain ⟨rfl, rfl, rfl⟩ := h
    exact ⟨.noMarker hmarker, rfl⟩

theorem tries_terminal
    (h : (Strategy.terminal.apply n attr).Talks (w.withoutStale n attr) talk answer w') :
    Tries w n attr .terminal talk answer w' := by
  simp only [Strategy.apply, NodeId.terminal, Bridge.talks_world_bind_iff,
    World.handle_withoutStale, World.name_withoutStale, World.nodeClassResolver_withoutStale] at h
  cases hhandle : (w.node n).handle with
  | some o =>
      simp only [hhandle, Bridge.talks_pure_iff] at h
      obtain ⟨rfl, rfl, rfl⟩ := h
      exact .handle hhandle
  | none =>
      cases hresolver : w.nodeClassResolver? n with
      | none =>
          simp only [hhandle, hresolver, Bridge.talks_pure_iff] at h
          obtain ⟨rfl, rfl, rfl⟩ := h
          exact ⟨.noResolver hhandle hresolver, rfl⟩
      | some c =>
          simp only [hhandle, hresolver, Bridge.talks_resolveClass_bind_iff] at h
          obtain ⟨reply, rest, rfl, h⟩ := h
          rcases reply with error | (_ | handle)
          · obtain ⟨rfl, rfl, rfl⟩ := h
            exact ⟨rfl, .classRaised hhandle hresolver⟩
          · obtain ⟨rfl, rfl, rfl⟩ := h
            exact ⟨.noClass hhandle hresolver, rfl⟩
          · obtain ⟨rfl, rfl, rfl⟩ := h
            exact .classFound hhandle hresolver

/-- What a strategy other than the cache answers, once the cache has passed. -/
theorem tries_of_talks (here : n.index < w.nodes.next)
    (live : w.isAlive (.registry (w.node n).registry)) (named : w.KeyedByName (w.node n).registry)
    {s : Strategy} (hs : s ≠ .cache)
    (h : (s.apply n attr).Talks (w.withoutStale n attr) talk answer w') :
    Tries w n attr s talk answer w' := by
  cases s with
  | cache => exact absurd rfl hs
  | foreignDelegate => exact tries_foreignDelegate h
  | native => exact tries_native h
  | foreignModule => exact tries_foreignModule here live named h
  | subPackage => exact tries_subPackage live h
  | exportMarker => exact tries_exportMarker h
  | terminal => exact tries_terminal h

/-- Strategies behind the cache, tried in order until one decides. -/
theorem resolveBy_talks (here : n.index < w.nodes.next)
    (live : w.isAlive (.registry (w.node n).registry)) (named : w.KeyedByName (w.node n).registry)
    {strategies : List Strategy} (hcache : Strategy.cache ∉ strategies)
    {result : Except ImportError Value}
    (h : (n.resolveBy attr strategies).Talks (w.withoutStale n attr) talk result w') :
    (∃ before s after front back, strategies = before ++ s :: after ∧ talk = front ++ back ∧
        PassesAll w n attr before front ∧ Decides w n attr s back result w') ∨
      PassesAll w n attr strategies talk ∧
        result = .error (.attributeNotFound (w.node n).name attr) ∧ w' = w.withoutStale n attr := by
  induction strategies generalizing talk with
  | nil =>
      simp only [NodeId.resolveBy, Bridge.talks_world_bind_iff, Bridge.talks_report_bind_iff,
        Bridge.talks_pure_iff, World.name_withoutStale] at h
      obtain ⟨rfl, rfl, rfl⟩ := h
      exact .inr ⟨rfl, rfl, rfl⟩
  | cons s others ih =>
      -- The cache would answer by the binding that is gone by now, so it must not come again.
      have hs : s ≠ .cache := fun heq => hcache (by simp [heq])
      have hothers : Strategy.cache ∉ others := fun hmem => hcache (by simp [hmem])
      simp only [NodeId.resolveBy, Bridge.talks_bind_iff] at h
      obtain ⟨front, back, answer, v, rfl, happly, h⟩ := h
      have htry := tries_of_talks here live named hs happly
      rcases answer with error | (value | _)
      · obtain ⟨hfound, hdecides⟩ := htry
        simp only [hfound, Bool.false_eq_true, if_false, Bridge.talks_pure_iff] at h
        obtain ⟨rfl, rfl, rfl⟩ := h
        exact .inl ⟨[], s, others, [], front, rfl, by simp, rfl, hdecides⟩
      · simp only [ne_eq, hs, not_false_eq_true, if_true, Bridge.talks_world_bind_iff,
          Bridge.talks_report_bind_iff, Bridge.talks_pure_iff] at h
        obtain ⟨rfl, rfl, rfl⟩ := h
        exact .inl ⟨[], s, others, [], front, rfl, by simp, rfl, htry⟩
      · obtain ⟨hpasses, rfl⟩ := htry
        rcases ih hothers h with
          ⟨before, t, after, said, last, rfl, rfl, hbefore, hdecides⟩ | ⟨hall, rfl, rfl⟩
        · exact .inl ⟨s :: before, t, after, front ++ said, last, rfl, by simp,
            ⟨front, said, rfl, hpasses, hbefore⟩, hdecides⟩
        · exact .inr ⟨⟨front, back, rfl, hpasses, hall⟩, rfl, rfl⟩

theorem getAttr_talks (here : n.index < w.nodes.next)
    (live : w.isAlive (.registry (w.node n).registry)) (named : w.KeyedByName (w.node n).registry)
    {result : Except ImportError Value} (h : (n.getAttr attr).Talks w talk result w') :
    (∃ before s after front back, Strategy.chain = before ++ s :: after ∧ talk = front ++ back ∧
        PassesAll w n attr before front ∧ Decides w n attr s back result w') ∨
      PassesAll w n attr Strategy.chain talk ∧
        result = .error (.attributeNotFound (w.node n).name attr) ∧ w' = w.withoutStale n attr := by
  obtain ⟨others, hchain⟩ : ∃ others, Strategy.chain = .cache :: others := ⟨_, rfl⟩
  have hothers : Strategy.cache ∉ others := by
    have hnodup : Strategy.chain.Nodup := by decide
    rw [hchain] at hnodup
    exact (List.nodup_cons.mp hnodup).1
  simp only [NodeId.getAttr, hchain, NodeId.resolveBy, Bridge.talks_bind_iff] at h
  obtain ⟨front, back, answer, v, rfl, happly, h⟩ := h
  have htry := tries_cache live happly
  rcases answer with error | (value | _)
  · obtain ⟨hfound, hdecides⟩ := htry
    simp only [hfound, Bool.false_eq_true, if_false, Bridge.talks_pure_iff] at h
    obtain ⟨rfl, rfl, rfl⟩ := h
    exact .inl ⟨[], .cache, others, [], front, hchain, by simp, rfl, hdecides⟩
  · obtain ⟨rfl, rfl, rfl⟩ := h
    exact .inl ⟨[], .cache, others, [], front, hchain, by simp, rfl, htry⟩
  · obtain ⟨hpasses, rfl⟩ := htry
    rcases resolveBy_talks here live named hothers h with
      ⟨before, t, after, said, last, rfl, rfl, hbefore, hdecides⟩ | ⟨hall, rfl, rfl⟩
    · exact .inl ⟨.cache :: before, t, after, front ++ said, last, hchain, by simp,
        ⟨front, said, rfl, hpasses, hbefore⟩, hdecides⟩
    · rw [hchain]
      exact .inr ⟨⟨front, back, rfl, hpasses, hall⟩, rfl, rfl⟩

end Strategies

section Uses

variable {w w' : World} {n : NodeId} {attr : String} {s : Strategy} {talk : List Exchange}

theorem truth_uses {v : Value} {truth : Bool} (h : Truth v talk truth) :
    ∀ x ∈ talk, Strategy.foreignDelegate.uses x.question := by
  cases h <;> simp [Strategy.uses]

theorem knowsModule_uses {e : EnquirerId} {name : String} {known : Bool}
    (h : KnowsModule e name talk known) :
    ∀ x ∈ talk, Strategy.foreignModule.uses x.question := by
  cases h <;> simp [Strategy.uses]

theorem passes_uses (h : Passes w n attr s talk) : ∀ x ∈ talk, s.uses x.question := by
  cases h with
  | falsy _ truth => simpa [Strategy.uses] using truth_uses truth
  | noModule _ unknown => exact knowsModule_uses unknown
  | _ => simp [Strategy.uses]

theorem decides_uses {result : Except ImportError Value} (h : Decides w n attr s talk result w') :
    ∀ x ∈ talk, s.uses x.question := by
  cases h with
  | truthy _ truth => simpa [Strategy.uses] using truth_uses truth
  | moduleThere _ known => exact knowsModule_uses known
  | moduleRaised _ known =>
      have hknown := knowsModule_uses known
      simpa [Strategy.uses, or_imp, forall_and] using hknown
  | moduleLoaded _ known =>
      have hknown := knowsModule_uses known
      simpa [Strategy.uses, or_imp, forall_and] using hknown
  | _ => simp [Strategy.uses]

theorem passesAll_uses {strategies : List Strategy} (h : PassesAll w n attr strategies talk) :
    ∀ x ∈ talk, ∃ s ∈ strategies, s.uses x.question := by
  induction strategies generalizing talk with
  | nil =>
      obtain rfl := h
      simp
  | cons s others ih =>
      obtain ⟨front, back, rfl, hpasses, hall⟩ := h
      intro x hx
      rcases List.mem_append.mp hx with hx | hx
      · exact ⟨s, by simp, passes_uses hpasses x hx⟩
      · obtain ⟨t, ht, huses⟩ := ih hall x hx
        exact ⟨t, by simp [ht], huses⟩

end Uses

/-- An attribute access answers with the first strategy that decides, and asks the host nothing
that belongs to a later one.  If none decides, the attribute is not found. -/
theorem getAttr_first_decisive (host : QuietHost) {w : World} {n : NodeId} (attr : String)
    (here : n.index < w.nodes.next) (live : w.isAlive (.registry (w.node n).registry))
    (named : w.KeyedByName (w.node n).registry) :
    let c := (n.getAttr attr).converse host [] w
    (∃ before s after passed said, Strategy.chain = before ++ s :: after ∧
        c.exchanges = passed ++ said ∧ PassesAll w n attr before passed ∧
        Decides w n attr s said c.result c.world ∧
        ∀ x ∈ c.exchanges, ∃ t ∈ before ++ [s], t.uses x.question) ∨
      PassesAll w n attr Strategy.chain c.exchanges ∧
        c.result = .error (.attributeNotFound (w.node n).name attr) ∧
        c.world = w.withoutStale n attr := by
  intro c
  have htalk := Bridge.talks_converse host (n.getAttr attr) [] w
  rcases getAttr_talks here live named htalk with
    ⟨before, s, after, passed, said, hchain, hsaid, hpasses, hdecides⟩ | hnone
  · refine .inl ⟨before, s, after, passed, said, hchain, hsaid, hpasses, hdecides, ?_⟩
    intro x hx
    rw [hsaid] at hx
    rcases List.mem_append.mp hx with hx | hx
    · obtain ⟨t, ht, huses⟩ := passesAll_uses hpasses x hx
      exact ⟨t, by simp [ht], huses⟩
    · exact ⟨s, by simp, decides_uses hdecides x hx⟩
  · exact .inr hnone

/-- The start of a process with one package registered, whose enquirer is the first. -/
def World.withPackage : World :=
  World.fresh.addRegistered (Node.bridge "pkg" .processWide none (some ⟨0⟩))

theorem World.keyedByName_withPackage : World.withPackage.KeyedByName .processWide :=
  .addRegistered (.of_empty fun _ => rfl) _

theorem getAttr_first_decisive_widget :
    let w := World.withPackage
    let n : NodeId := ⟨0⟩
    let c := (n.getAttr "Widget").converse (fun _ => .knowing "pkg.Widget" ⟨7⟩) [] w
    (n.index < w.nodes.next ∧ w.isAlive (.registry (w.node n).registry) = true ∧
        w.KeyedByName (w.node n).registry) ∧
      c.result.toOption.bind Value.asNode? = some w.nextNode ∧
      ((∃ before s after passed said, Strategy.chain = before ++ s :: after ∧
          c.exchanges = passed ++ said ∧ PassesAll w n "Widget" before passed ∧
          Decides w n "Widget" s said c.result c.world ∧
          ∀ x ∈ c.exchanges, ∃ t ∈ before ++ [s], t.uses x.question) ∨
        PassesAll w n "Widget" Strategy.chain c.exchanges ∧
          c.result = .error (.attributeNotFound (w.node n).name "Widget") ∧
          c.world = w.withoutStale n "Widget") := by
  have here : (0 : Nat) < World.withPackage.nodes.next := by decide
  have live : World.withPackage.isAlive (.registry .processWide) = true := by decide
  refine ⟨⟨here, live, World.keyedByName_withPackage⟩, by decide, ?_⟩
  exact getAttr_first_decisive _ "Widget" here live World.keyedByName_withPackage

end Attribute
end ForeignNamespace
