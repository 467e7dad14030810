import SemanticLayer.Proofs.Connection.Catalog
import SemanticLayer.Proofs.Engine.OnePool
import SemanticLayer.Proofs.Engine.Stages
import SemanticLayer.Proofs.Schema.History
/-!
Where descriptions come from. A task that describes a database reads it through a pool for the endpoint that it was
told, and leaves what it read in the cache under a key that does not tell endpoints apart. So what others find there
is from the endpoint that they are told only as far as nobody who was told another one is still to come.
-/
namespace SemanticLayer

/-- The description that a task has read when it goes on to a stage, and the pool. -/
def Stage.read? : Stage → Stage → Option (Nat × DatabaseSchema)
  | running backend _ _ _ _, storing _ schema => some (backend, schema)
  | _, _ => none

def Stage.saves? : Stage → Option Connection
  | start (.save connection) => some connection
  | _ => none

/-- The description that a task is to keep under a key, or was told. -/
def Stage.description? : Stage → Option (Option PoolKey × DatabaseSchema)
  | storing key schema => some (some key, schema)
  | done (.ok (.schema schema)) => some (none, schema)
  | _ => none

theorem Engine.resolve_eq_ok {e : Engine} {catalog : Catalog} {id : Option String} {target : Target}
    (h : e.resolve catalog id = .ok target) :
    (∃ name c, catalog.Has name c ∧ target = .ofConnection c ∧ ∀ asked, id = some asked → name = asked) ∨
      id = none ∧ target.key = .application := by
  cases id with
  | some asked =>
      simp only [resolve, bind_eq_ok_iff] at h
      obtain ⟨found, hfound, h⟩ := h
      cases found with
      | none => simp at h
      | some c =>
          have hhas : catalog.Has asked c := by
            unfold saved unlessFailing at hfound
            split at hfound
            · simp at hfound
            · exact Catalog.get?_eq_some_iff.1 (Except.ok.inj hfound)
          dsimp only at h
          split at h
          · obtain rfl := pure_eq_ok_iff.1 h
            refine .inl ⟨asked, c, hhas, rfl, ?_⟩
            rintro _ ⟨⟩
            rfl
          · simp at h
  | none =>
      simp only [resolve, bind_eq_ok_iff] at h
      obtain ⟨found, hfound, h⟩ := h
      cases found with
      | none =>
          cases happlication : e.application with
          | none => simp [happlication] at h
          | some c =>
              rw [happlication] at h
              obtain rfl := pure_eq_ok_iff.1 h
              exact .inr ⟨rfl, rfl⟩
      | some c =>
          obtain rfl := pure_eq_ok_iff.1 h
          unfold unlessFailing at hfound
          split at hfound
          · simp at hfound
          · obtain ⟨⟨name, d⟩, hmem, rfl⟩ := List.mem_map.1 (List.mem_of_find?_eq_some (Except.ok.inj hfound))
            exact .inl ⟨name, d, hmem, rfl, by simp⟩

theorem Engine.key_of_resolve {e : Engine} {catalog : Catalog} {id : String} {target : Target} (hkeyed : catalog.Keyed)
    (h : e.resolve catalog (some id) = .ok target) : target.key = .connection id := by
  rcases resolve_eq_ok h with ⟨name, c, hhas, rfl, hname⟩ | ⟨hnone, -⟩
  · obtain rfl := hname id rfl
    exact congrArg PoolKey.connection (hkeyed name c hhas)
  · simp at hnone

namespace EngineState

variable {e : Engine} {s s' : EngineState} {i j b : Nat} {o : Outside} {stage next : Stage} {turn : Turn}
  {turns : List Turn} {key : PoolKey} {target : Target} {errand : Errand} {c d : Connection} {id : String}
  {schema : DatabaseSchema} {read more : List (Nat × DatabaseSchema)} {entry : Cached DatabaseSchema} {warm : Prop}
  {afresh : Bool}

def readings (e : Engine) (s : EngineState) (turns : List Turn) : List (Nat × DatabaseSchema) :=
  trace e (fun s i o stage => stage.read? ((s.after 1).move e i o stage).2) s turns

def saves (e : Engine) (s : EngineState) (turns : List Turn) : List Connection :=
  trace e (fun _ _ _ stage => stage.saves?) s turns

/-! ## What a step does to the catalog and the cache -/

theorem has_move (h : (s.move e i o stage).1.catalog.Has id c) :
    (stage.saves? = some c ∧ id = c.id) ∨ ∃ d, s.catalog.Has id d ∧ c.Alike d := by
  rw [catalog_move] at h
  unfold catalogAfter at h
  split at h
  · rcases Catalog.has_upsert h with ⟨rfl, rfl⟩ | h
    · exact .inl ⟨rfl, rfl⟩
    · exact .inr h
  · exact .inr ⟨c, Catalog.has_remove h, rfl, rfl⟩
  · split at h
    · exact .inr (Catalog.has_record h)
    · exact .inr ⟨c, h, rfl, rfl⟩
  · exact .inr ⟨c, h, rfl, rfl⟩

theorem mem_cache_move (h : (key, entry) ∈ (s.move e i o stage).1.cache.entries) :
    (key, entry) ∈ s.cache.entries ∨ stage = .storing key entry.value := by
  rw [cache_move] at h
  unfold cacheAfter at h
  split at h
  · rcases Cache.mem_insert h with hmem | ⟨rfl, rfl⟩
    · exact .inl hmem
    · exact .inr rfl
  · exact .inl (Cache.mem_erase.1 h).1
  · exact absurd h List.not_mem_nil
  · exact .inl h

/-! ## What is read for a connection -/

def ReadFor (s : EngineState) (read : List (Nat × DatabaseSchema)) (c : Connection) (schema : DatabaseSchema) : Prop :=
  ∃ b, (b, schema) ∈ read ∧ s.MadeFor b c

/-- If a task describes the database of a key, then it does so through a pool for the endpoint of a connection. -/
def ReadsFor (s : EngineState) (read : List (Nat × DatabaseSchema)) (key : PoolKey) (c : Connection) : Stage → Prop
  | .consulting target => target.key = key → target.connection.endpoint = c.endpoint
  | .acquiring _ target (.describe other _ _) => other = key → target.connection.endpoint = c.endpoint
  | .running backend (.describe other _ _) _ _ _ => other = key → s.MadeFor backend c
  | .storing other schema => other = key → s.ReadFor read c schema
  | _ => True

/-- The stages of a task that describes the database of a key. What it answers was read for a connection. -/
inductive Describes (s : EngineState) (read : List (Nat × DatabaseSchema)) (id : String) (afresh : Bool)
    (c : Connection) (warm : Prop) : Stage → Prop
  | start : s.Describes read id afresh c warm (.start (.describe (some id) afresh))
  | consulting {target : Target} (hkey : target.key = .connection id) (hwarm : warm) :
      s.Describes read id afresh c warm (.consulting target)
  | acquiring (progress : Acquisition) (target : Target) (name : String) (timeout : Nat) :
      s.Describes read id afresh c warm (.acquiring progress target (.describe (.connection id) name timeout))
  | running (backend : Nat) (name : String) (timeout : Nat) (statement : String) (rest : List String)
      (results : List ResultSet) : s.Describes read id afresh c warm
        (.running backend (.describe (.connection id) name timeout) statement rest results)
  | storing (schema : DatabaseSchema) : s.Describes read id afresh c warm (.storing (.connection id) schema)
  | answered {schema : DatabaseSchema} (h : s.ReadFor read c schema) :
      s.Describes read id afresh c warm (.done (.ok (.schema schema)))
  | ended {outcome : Except Failure Reply} (h : ∀ schema, outcome ≠ .ok (.schema schema)) :
      s.Describes read id afresh c warm (.done outcome)

theorem ReadFor.mono (h : s.ReadFor read c schema) (hbackends : s.backends <+: s'.backends) (hread : read ⊆ more) :
    s'.ReadFor more c schema := by
  obtain ⟨b, hb, hmade⟩ := h
  exact ⟨b, hread hb, hmade.mono hbackends⟩

theorem ReadsFor.mono (h : s.ReadsFor read key c stage) (hbackends : s.backends <+: s'.backends)
    (hread : read ⊆ more) : s'.ReadsFor more key c stage := by
  cases stage with
  | acquiring progress target errand => cases errand <;> exact h
  | running backend errand statement rest results =>
      cases errand with
      | describe other name timeout => exact fun hkey => (h hkey).mono hbackends
      | _ => trivial
  | storing other schema => exact fun hkey => (h hkey).mono hbackends hread
  | _ => exact h

theorem Describes.mono (h : s.Describes read id afresh c warm stage) (hbackends : s.backends <+: s'.backends)
    (hread : read ⊆ more) : s'.Describes more id afresh c warm stage := by
  cases h with
  | start => exact .start
  | consulting hkey hwarm => exact .consulting hkey hwarm
  | acquiring progress target name timeout => exact .acquiring progress target name timeout
  | running backend name timeout statement rest results => exact .running backend name timeout statement rest results
  | storing schema => exact .storing schema
  | answered h => exact .answered (h.mono hbackends hread)
  | ended h => exact .ended h

theorem Leads.readsFor (h : s.Leads e stage next) (hstage : s.ReadsFor read key c stage) (hfitting : s.Fitting)
    (hat : s.At i stage) (hresolve : ∀ id target, e.resolve s.catalog id = .ok target → target.key = key →
      target.connection.endpoint = c.endpoint)
    (hread : ∀ b schema, stage.read? next = some (b, schema) → (b, schema) ∈ read) : s.ReadsFor read key c next := by
  cases h with
  | asks hasks =>
      cases hasks with
      | describe htarget => exact hresolve _ _ htarget
      | _ => trivial
  | consults htarget => exact hresolve _ _ htarget
  | misses hget => exact hstage
  | proceeds errand hproceeds => cases errand <;> exact hstage
  | arrives errand statement rest hgets =>
      cases errand with
      | describe other name timeout => exact fun hkey => (hgets.madeFor hfitting hat).congr (hstage hkey)
      | _ => trivial
  | continues backend errand statement next rest results more => cases errand <;> exact hstage
  | described backend other name timeout statement results schema =>
      exact fun hkey => ⟨backend, hread _ _ rfl, hstage hkey⟩
  | _ => trivial

theorem Leads.describes (h : s.Leads e stage next) (hstage : s.Describes read id afresh c warm stage)
    (hresolve : ∀ target, e.resolve s.catalog (some id) = .ok target →
      target.key = .connection id ∧ (afresh = false → warm))
    (hcache : warm → ∀ entry, (.connection id, entry) ∈ s.cache.entries → s.ReadFor read c entry.value)
    (hreads : s.ReadsFor read (.connection id) c stage) : s.Describes read id afresh c warm next := by
  cases hstage with
  | start =>
      cases h with
      | refused => exact .ended (by simp)
      | asks hasks =>
          cases hasks with
          | describe htarget =>
              rw [describeErrand, (hresolve _ htarget).1]
              exact .acquiring _ _ _ _
      | consults htarget => exact .consulting (hresolve _ htarget).1 ((hresolve _ htarget).2 rfl)
  | consulting hkey hwarm =>
      cases h with
      | hits hget =>
          obtain ⟨entry, hentry, rfl⟩ := Cache.mem_of_get? hget
          rw [hkey] at hentry
          exact .answered (hcache hwarm entry hentry)
      | misses hget =>
          rw [describeErrand, hkey]
          exact .acquiring _ _ _ _
  | acquiring progress target name timeout =>
      cases h with
      | proceeds => exact .acquiring _ _ _ _
      | arrives => exact .running _ _ _ _ _ _
      | holds hgets hnone => simp [Errand.statements, Errand.catalogStatements] at hnone
      | fails => exact .ended (by simp)
  | running backend name timeout statement rest results =>
      cases h with
      | continues => exact .running _ _ _ _ _ _
      | described => exact .storing _
      | answered hprobe hschema => exact .ended hschema
  | storing schema =>
      cases h with
      | stores => exact .answered (hreads rfl)
  | answered hread =>
      cases h with
      | rests => exact .answered hread
  | ended hschema =>
      cases h with
      | rests => exact .ended hschema

/-! ## Runs without edits -/

/-- What holds while a connection keeps its endpoint, of a task that describes its database. What is in the cache is
spoken about only if that task may look there. -/
structure Described (id : String) (afresh : Bool) (c : Connection) (warm : Prop) (i : Nat) (s : EngineState)
    (read : List (Nat × DatabaseSchema)) : Prop where
  fitting : s.Fitting
  keyed : s.catalog.Keyed
  endpoint : ∀ d, s.catalog.Has id d → d.endpoint = c.endpoint ∧ (afresh = false → warm)
  cache : warm → ∀ entry, (.connection id, entry) ∈ s.cache.entries → s.ReadFor read c entry.value
  reads : ∀ j stage, warm ∨ j = i → s.At j stage → s.ReadsFor read (.connection id) c stage
  describes : ∀ stage, s.At i stage → s.Describes read id afresh c warm stage

theorem Described.resolve (h : Described id afresh c warm i s read) {asked : Option String}
    (htarget : e.resolve s.catalog asked = .ok target) (hkey : target.key = .connection id) :
    target.connection.endpoint = c.endpoint ∧ (afresh = false → warm) := by
  rcases Engine.resolve_eq_ok htarget with ⟨name, d, hhas, rfl, -⟩ | ⟨-, happlication⟩
  · have hname : d.id = id := PoolKey.connection.inj hkey
    rw [h.keyed name d hhas] at hname
    rw [hname] at hhas
    exact h.endpoint d hhas
  · rw [happlication] at hkey
    simp at hkey

theorem Described.congr (h : Described id afresh c warm i s read) (hleaves : s.Leaves s')
    (hcatalog : s'.catalog = s.catalog) (hcache : s'.cache = s.cache) : Described id afresh c warm i s' read where
  fitting := h.fitting.of_leaves hleaves
  keyed := by
    rw [hcatalog]
    exact h.keyed
  endpoint := by
    rw [hcatalog]
    exact h.endpoint
  cache := by
    rw [hcache]
    exact fun hwarm entry hmem => (h.cache hwarm entry hmem).mono hleaves.backends (List.Subset.refl _)
  reads := by
    simp only [At, hleaves.tasks]
    exact fun j stage hj hat => (h.reads j stage hj hat).mono hleaves.backends (List.Subset.refl _)
  describes := by
    simp only [At, hleaves.tasks]
    exact fun stage hat => (h.describes stage hat).mono hleaves.backends (List.Subset.refl _)

theorem Described.advance (h : Described id afresh c warm i s read) (hat : s.At j stage)
    (hsaves : ∀ d, stage.saves? = some d → d.id ≠ id) : Described id afresh c warm i (s.advance e j o stage)
      (read ++ (stage.read? (s.move e j o stage).2).toList) := by
  have hbackends : s.backends <+: (s.advance e j o stage).backends := by
    rw [advance_eq]
    exact backends_move
  have hmore : read ⊆ read ++ (stage.read? (s.move e j o stage).2).toList := List.subset_append_left _ _
  have hhas {name : String} {d : Connection} (hd : (s.advance e j o stage).catalog.Has name d) :
      (stage.saves? = some d ∧ name = d.id) ∨ ∃ d', s.catalog.Has name d' ∧ d.Alike d' := by
    rw [advance_eq] at hd
    exact has_move hd
  have hleads := move_leads e s j o stage
  have hread : ∀ b schema, stage.read? (s.move e j o stage).2 = some (b, schema) →
      (b, schema) ∈ read ++ (stage.read? (s.move e j o stage).2).toList := by
    intro b schema hb
    exact List.mem_append_right _ (Option.mem_toList.2 hb)
  constructor
  · exact h.fitting.advance hat
  · intro name d hd
    rcases hhas hd with ⟨-, rfl⟩ | ⟨d', hd', hlike⟩
    · rfl
    · exact hlike.id.trans (h.keyed name d' hd')
  · intro d hd
    rcases hhas hd with ⟨hsaved, hname⟩ | ⟨d', hd', hlike⟩
    · exact absurd hname.symm (hsaves d hsaved)
    · obtain ⟨hendpoint, hwarm⟩ := h.endpoint d' hd'
      exact ⟨hlike.endpoint.trans hendpoint, hwarm⟩
  · intro hwarm entry hmem
    rw [advance_eq] at hmem
    rcases mem_cache_move hmem with hbefore | rfl
    · exact (h.cache hwarm entry hbefore).mono hbackends hmore
    · exact (h.reads j _ (.inl hwarm) hat rfl).mono hbackends hmore
  · intro m stage' hm hat'
    by_cases hmj : m = j
    · subst hmj
      rw [← (at_advance (e := e) (o := o) hat).unique hat']
      have hbefore := (h.reads m stage hm hat).mono List.prefix_rfl hmore
      exact (hleads.readsFor hbefore h.fitting hat (fun _ _ htarget hkey => (h.resolve htarget hkey).1) hread).mono
        hbackends (List.Subset.refl _)
    · exact (h.reads m stage' hm ((at_advance_of_ne hmj).1 hat')).mono hbackends hmore
  · intro stage' hat'
    by_cases hij : i = j
    · subst hij
      rw [← (at_advance (e := e) (o := o) hat).unique hat']
      have hbefore := h.describes stage hat
      refine (hleads.describes hbefore ?_ h.cache (h.reads i stage (.inr rfl) hat)).mono hbackends hmore
      intro target htarget
      have hkey := Engine.key_of_resolve h.keyed htarget
      exact ⟨hkey, (h.resolve htarget hkey).2⟩
    · exact (h.describes stage' ((at_advance_of_ne hij).1 hat')).mono hbackends hmore

theorem step_keeps (hturn : ∀ i o, turn ≠ .task i o) (h : s.step e turn = some s') :
    s'.catalog = s.catalog ∧ s'.cache = s.cache := by
  cases turn with
  | task i o => exact absurd rfl (hturn i o)
  | close backend =>
      rw [EngineState.step] at h
      dsimp only at h
      split at h
      · obtain rfl := Option.some.inj h
        exact ⟨rfl, rfl⟩
      · simp at h
  | wait nanoseconds =>
      obtain rfl := Option.some.inj h
      exact ⟨rfl, rfl⟩

theorem Described.run (h : Described id afresh c warm i s read) (hsaves : ∀ d ∈ saves e s turns, d.id ≠ id) :
    Described id afresh c warm i (s.run e turns) (read ++ readings e s turns) := by
  induction turns generalizing s read with
  | nil =>
      rw [readings, trace, List.append_nil]
      exact h
  | cons turn turns ih =>
      cases hstep : s.step e turn with
      | none =>
          -- a turn in which nobody moves is heard of by nobody
          rw [saves, trace, hstep] at hsaves
          rw [readings, trace, EngineState.run, List.foldl_cons, hstep]
          exact ih h hsaves
      | some s' =>
          rw [readings, trace_cons_of_step hstep, run_of_step hstep, ← List.append_assoc]
          refine ih ?_ fun d hd => hsaves d ((mem_trace_cons hstep).2 (.inr hd))
          cases turn with
          | task j o =>
              obtain ⟨stage, hat, -, -, rfl⟩ := step_task_iff.1 hstep
              have hlater : Described id afresh c warm i (s.after 1) read := h.congr (leaves_of_eq rfl) rfl rfl
              have hnotice : s.notice? (fun s i o stage => stage.read? ((s.after 1).move e i o stage).2) (.task j o) =
                  stage.read? ((s.after 1).move e j o stage).2 := by
                rw [notice?, show s.tasks[j]? = some stage from hat]
                rfl
              rw [hnotice]
              refine hlater.advance hat fun d hd => ?_
              apply hsaves
              exact (mem_trace_cons hstep).2 (.inl (notice?_eq_some_iff.2 ⟨j, o, stage, rfl, hat, hd⟩))
          | _ =>
              obtain ⟨hcatalog, hcache⟩ := step_keeps (by simp) hstep
              simp only [notice?, Option.toList_none, List.append_nil]
              exact h.congr (step_leaves (by simp) hstep).1 hcatalog hcache

theorem keyed_run (e : Engine) (settings : Settings) {catalog : Catalog} (hcatalog : catalog.Keyed)
    (operations : List Operation) (turns : List Turn) :
    ((started settings catalog operations).run e turns).catalog.Keyed := by
  refine run_induction (P := fun s => s.catalog.Keyed) hcatalog ?_ turns
  intro s turn s' hs hstep
  cases turn with
  | task i o =>
      obtain ⟨stage, -, -, -, rfl⟩ := step_task_iff.1 hstep
      rw [advance_eq]
      intro name d hd
      rcases has_move hd with ⟨-, rfl⟩ | ⟨d', hd', hlike⟩
      · rfl
      · exact hlike.id.trans (hs name d' hd')
  | _ =>
      rw [(step_keeps (by simp) hstep).1]
      exact hs

/-- A task that is to describe a database is covered from the moment at which nothing is kept for its key: provided
that it is to read afresh, or that all others who describe the database do so for the same endpoint. -/
theorem exists_described (hfitting : s.Fitting) (hkeyed : s.catalog.Keyed)
    (herased : ∀ entry, (.connection id, entry) ∉ s.cache.entries)
    (hstart : s.At i (.start (.describe (some id) afresh)))
    (hflight : afresh = true ∨ ∀ c, s.catalog.Has id c → ∀ j stage, s.At j stage →
      s.ReadsFor read (.connection id) c stage) : ∃ c warm, Described id afresh c warm i s read := by
  -- if the catalog has no connection of this name, any will do: nothing is resolved then
  let c := (s.catalog.get? id).getD (asked id).connection
  have hc {d : Connection} (hd : s.catalog.Has id d) : d = c := by
    change d = (s.catalog.get? id).getD _
    rw [Catalog.get?_eq_some_iff.2 hd]
    rfl
  refine ⟨c, afresh = false ∧ ∃ d, s.catalog.Has id d, hfitting, hkeyed, ?_, ?_, ?_, ?_⟩
  · intro d hd
    exact ⟨congrArg Connection.endpoint (hc hd), fun hcached => ⟨hcached, d, hd⟩⟩
  · intro _ entry hmem
    exact absurd hmem (herased entry)
  · rintro j stage (⟨hcached, d, hd⟩ | rfl) hj
    · have hcovered := hflight.resolve_left (by simp [hcached])
      rw [← hc hd]
      exact hcovered d hd j stage hj
    · rw [← hstart.unique hj]
      trivial
  · intro stage hi
    rw [← hstart.unique hi]
    exact .start

theorem Described.told (h : Described id afresh c warm i s read) (hsaves : ∀ d ∈ saves e s turns, d.id ≠ id)
    (hdone : (s.run e turns).At i (.done (.ok (.schema schema)))) : ∃ b, (b, schema) ∈ read ++ readings e s turns ∧
      ∀ first rest target, turns = first ++ rest → e.resolve (s.run e first).catalog (some id) = .ok target →
        (s.run e turns).MadeFor b target.connection := by
  cases (h.run hsaves).describes _ hdone with
  | ended hschema => exact absurd rfl (hschema schema)
  | answered hread =>
      obtain ⟨b, hb, hmade⟩ := hread
      refine ⟨b, hb, ?_⟩
      rintro first rest target rfl htarget
      have hbefore : ∀ d ∈ saves e s first, d.id ≠ id := by
        intro d hd
        apply hsaves
        rw [saves, trace_append]
        exact List.mem_append_left _ hd
      have hfirst := h.run hbefore
      have hendpoint := (hfirst.resolve htarget (Engine.key_of_resolve hfirst.keyed htarget)).1
      exact hmade.congr hendpoint.symm

/-! ## What comes late -/

theorem run_storing (hat : s.At j (.storing key schema)) : (s.run e (goes j 1)).catalog = s.catalog ∧
    (s.run e (goes j 1)).cache = s.cache.insert (s.clock + 1) key schema ∧
    (s.run e (goes j 1)).clock = s.clock + 1 := by
  rw [run_goes hat rfl rfl]
  exact ⟨rfl, rfl, rfl⟩

theorem run_describe (hat : s.At i (.start (.describe (some id) false)))
    (htarget : e.resolve s.catalog (some id) = .ok target) :
    (s.run e (goes i 1)).At i (.consulting target) ∧ (s.run e (goes i 1)).cache = s.cache ∧
      (s.run e (goes i 1)).clock = s.clock + 1 := by
  have htarget' : e.resolve (s.after 1).catalog (some id) = .ok target := htarget
  have hmove (o : Outside) : (s.after 1).move e i o (.start (.describe (some id) false)) =
      (s.after 1, .consulting target) := by
    simp only [move, startStep, htarget']
    rfl
  have hnext := at_advance_after (e := e) (o := ⟨none, .ok .empty⟩) hat
  rw [hmove] at hnext
  rw [run_goes hat rfl rfl]
  refine ⟨hnext, ?_⟩
  rw [advance_eq, hmove]
  exact ⟨rfl, rfl⟩

theorem run_consulting (hat : s.At i (.consulting target))
    (hget : s.cache.get? (s.clock + 1) target.key = some schema) :
    (s.run e (goes i 1)).At i (.done (.ok (.schema schema))) := by
  have hget' : (s.after 1).cache.get? (s.after 1).clock target.key = some schema := hget
  have hnext := at_advance_after (e := e) (o := ⟨none, .ok .empty⟩) hat
  simp only [move, hget'] at hnext
  rw [run_goes hat rfl rfl]
  exact hnext

theorem told_of_storing (hstoring : s.At j (.storing (.connection id) schema))
    (hstart : s.At i (.start (.describe (some id) false))) (hcapacity : s.cache.capacity ≠ 0)
    (hlifetime : 2 < s.cache.lifetime) (hkeyed : s.catalog.Keyed)
    (htarget : e.resolve s.catalog (some id) = .ok target) :
    (s.run e (goes j 1 ++ (goes i 1 ++ goes i 1))).At i (.done (.ok (.schema schema))) := by
  have hothers : ∀ turn ∈ goes j 1, ∀ o, turn ≠ .task i o := by
    intro turn hturn o heq
    obtain ⟨rfl, -⟩ := Turn.task.inj ((List.eq_of_mem_replicate hturn).symm.trans heq)
    simpa using hstoring.unique hstart
  obtain ⟨hcatalog, hcache, hclock⟩ := run_storing (e := e) hstoring
  have hstart' := (at_run_of_others (e := e) hothers).2 hstart
  obtain ⟨hconsulting, hcache', hclock'⟩ := run_describe (e := e) hstart' (by rw [hcatalog]; exact htarget)
  rw [run_append, run_append]
  refine run_consulting hconsulting ?_
  rw [hcache', hcache, hclock', hclock, Engine.key_of_resolve hkeyed htarget]
  exact Cache.get?_insert_self hcapacity (by omega)

/-- Whoever asks for the description of a database after a change of its connection is over, while nobody changes the
connection again, is told one that was read through a pool for the endpoint that the connection has now: provided that
it is to be read afresh, or that all who are about to describe the database when the change ends do so through such
pools. One who has another description ready then makes it the one that is told. -/
theorem described_after_change (e : Engine) (settings : Settings) (catalog : Catalog) (operations : List Operation)
    (before after : List Turn) (m i : Nat) (o : Outside) (s : EngineState) (id : String) (afresh : Bool)
    (hkeyed : catalog.Keyed)
    (hat : ((started settings catalog operations).run e before).At m (.invalidating (.connection id)))
    (hstep : ((started settings catalog operations).run e before).step e (.task m o) = some s)
    (hstart : s.At i (.start (.describe (some id) afresh))) :
    ((∀ d ∈ saves e s after, d.id ≠ id) →
      (afresh = true ∨ ∀ c, s.catalog.Has id c → ∀ j stage, s.At j stage →
        s.ReadsFor (readings e (started settings catalog operations) before) (.connection id) c stage) →
      ∀ schema, (s.run e after).At i (.done (.ok (.schema schema))) →
        ∃ b, (b, schema) ∈ readings e (started settings catalog operations) (before ++ .task m o :: after) ∧
          ∀ first rest target, after = first ++ rest →
            e.resolve (s.run e first).catalog (some id) = .ok target →
            (s.run e after).MadeFor b target.connection) ∧
      (afresh = false → ∀ j found target, s.At j (.storing (.connection id) found) → s.cache.capacity ≠ 0 →
        2 < s.cache.lifetime → e.resolve s.catalog (some id) = .ok target →
        (s.run e (goes j 1 ++ (goes i 1 ++ goes i 1))).At i (.done (.ok (.schema found)))) := by
  have hfitting := ((serving_run e settings catalog operations before).step hstep).fitting
  have hkeyed' : s.catalog.Keyed := by
    have hrun := keyed_run e settings hkeyed operations (before ++ [.task m o])
    rwa [run_append, run_of_step hstep] at hrun
  constructor
  · intro hsaves hflight schema hdone
    have herased : ∀ entry, (.connection id, entry) ∉ s.cache.entries := by
      intro entry hmem
      obtain ⟨stage, hat', -, -, rfl⟩ := step_task_iff.1 hstep
      obtain rfl := hat.unique hat'
      rw [advance_eq] at hmem
      exact (Cache.mem_erase.1 hmem).2 rfl
    have hreadings : readings e (started settings catalog operations) (before ++ .task m o :: after) =
        readings e (started settings catalog operations) before ++ readings e s after := by
      rw [readings, trace_append, trace_cons_of_step hstep, notice?,
        show ((started settings catalog operations).run e before).tasks[m]? = _ from hat]
      rfl
    obtain ⟨c, warm, hdescribed⟩ := exists_described hfitting hkeyed' herased hstart hflight
    rw [hreadings]
    exact hdescribed.told hsaves hdone
  · rintro rfl j found target hstoring hcapacity hlifetime htarget
    exact told_of_storing hstoring hstart hcapacity hlifetime hkeyed' htarget

section Rotation

/-- Two tasks are to describe a database. In between its connection is given a new secret, which is made known. -/
def rewriting : List Operation :=
  [.describe (some "orders") false, .save (rotated "new").connection, .changed "orders",
    .describe (some "orders") false]

/-- The first one has come some steps far when the connection is changed, and its pool dropped. -/
def rewritten (steps : Nat) : EngineState :=
  (started .usual (.ofConnections [(rotated "old").connection]) rewriting).run ⟨.empty, .usual, none, .open⟩
    (goes 0 steps ++ goes 1 1 ++ goes 2 1)

theorem exists_description {s : EngineState} {i : Nat} {key? : Option PoolKey}
    (h : (s.tasks[i]?.bind Stage.description?).map Prod.fst = some key?) :
    ∃ stage schema, s.At i stage ∧ stage.description? = some (key?, schema) := by
  obtain ⟨⟨key?, schema⟩, hbind, rfl⟩ := Option.map_eq_some_iff.1 h
  obtain ⟨stage, hat, hdescription⟩ := Option.bind_eq_some_iff.1 hbind
  exact ⟨stage, schema, hat, hdescription⟩

theorem exists_told {s : EngineState} {i : Nat}
    (h : (s.tasks[i]?.bind Stage.description?).map Prod.fst = some none) :
    ∃ schema, s.At i (.done (.ok (.schema schema))) := by
  obtain ⟨stage, schema, hat, hdescription⟩ := exists_description h
  refine ⟨schema, ?_⟩
  unfold Stage.description? at hdescription
  split at hdescription
  · simp at hdescription
  · obtain ⟨-, rfl⟩ := Prod.mk.inj (Option.some.inj hdescription)
    exact hat
  · simp at hdescription

theorem exists_storing {s : EngineState} {i : Nat} {key : PoolKey}
    (h : (s.tasks[i]?.bind Stage.description?).map Prod.fst = some (some key)) :
    ∃ schema, s.At i (.storing key schema) := by
  obtain ⟨stage, schema, hat, hdescription⟩ := exists_description h
  refine ⟨schema, ?_⟩
  unfold Stage.description? at hdescription
  split at hdescription
  · obtain ⟨hkey, rfl⟩ := Prod.mk.inj (Option.some.inj hdescription)
    obtain rfl := Option.some.inj hkey
    exact hat
  · simp at hdescription
  · simp at hdescription

/-- What it has read with the old secret, it puts into the cache when the change is over, and the second one is told
that. -/
theorem rewritten_stale :
    let e : Engine := ⟨.empty, .usual, none, .open⟩
    let changed := (rewritten 18).run e (goes 2 1)
    let last := changed.run e (goes 0 1 ++ goes 3 2)
    changed.At 2 (.done (.ok .nothing)) ∧ changed.At 3 (.start (.describe (some "orders") false)) ∧
      saves e changed (goes 0 1 ++ goes 3 2) = [] ∧
      e.resolve changed.catalog (some "orders") = .ok (rotated "new") ∧
      (∃ schema, last.At 3 (.done (.ok (.schema schema)))) ∧
      last.backends.map Backend.connection = [(rotated "old").connection] ∧
      (rotated "old").connection.endpoint ≠ (rotated "new").connection.endpoint := by
  intro e changed last
  have hchanged : changed.At 2 (.done (.ok .nothing)) := by unfold At; rfl
  have hstart : changed.At 3 (.start (.describe (some "orders") false)) := by unfold At; rfl
  have hlast : ∃ schema, last.At 3 (.done (.ok (.schema schema))) := exists_told (by decide +kernel)
  exact ⟨hchanged, hstart, by decide +kernel, by rfl, hlast, by decide +kernel, by decide +kernel⟩

/-- Had it not set out, the second one would read the database with the new secret. -/
theorem described_after_change_rewritten :
    let e : Engine := ⟨.empty, .usual, none, .open⟩
    let catalog := Catalog.ofConnections [(rotated "old").connection]
    let changed (steps : Nat) := (rewritten steps).run e (goes 2 1)
    (∃ schema b, ((changed 0).run e (goes 3 19)).At 3 (.done (.ok (.schema schema))) ∧
        (b, schema) ∈ readings e (started .usual catalog rewriting) (goes 1 1 ++ goes 2 1 ++ goes 2 1 ++ goes 3 19) ∧
        ((changed 0).run e (goes 3 19)).MadeFor b (rotated "new").connection) ∧
      ∃ schema, ((changed 18).run e (goes 0 1 ++ (goes 3 1 ++ goes 3 1))).At 3 (.done (.ok (.schema schema))) := by
  intro e catalog changed
  have hkeyed : catalog.Keyed := Catalog.keyed_ofConnections _
  constructor
  · have hat : (rewritten 0).At 2 (.invalidating (.connection "orders")) := by unfold At; rfl
    have hstart : (changed 0).At 3 (.start (.describe (some "orders") false)) := by unfold At; rfl
    have hnone : saves e (changed 0) (goes 3 19) = [] := by decide +kernel
    have hsaves : ∀ d ∈ saves e (changed 0) (goes 3 19), d.id ≠ "orders" := by
      rw [hnone]
      simp
    have htasks : (changed 0).tasks = [.start (.describe (some "orders") false), .done (.ok .nothing),
      .done (.ok .nothing), .start (.describe (some "orders") false)] := by rfl
    obtain ⟨schema, hdone⟩ : ∃ schema, ((changed 0).run e (goes 3 19)).At 3 (.done (.ok (.schema schema))) :=
      exists_told (by decide +kernel)
    have hmain := (described_after_change e .usual catalog rewriting (goes 0 0 ++ goes 1 1 ++ goes 2 1) (goes 3 19) 2 3
      _ (changed 0) "orders" false hkeyed hat (step_goes hat rfl rfl) hstart).1
    obtain ⟨b, hb, hmade⟩ := hmain hsaves (.inr (by
      intro c _ j stage hj
      have hmem : stage ∈ (changed 0).tasks := List.mem_of_getElem? hj
      rw [htasks] at hmem
      rcases hmem with _ | ⟨_, _ | ⟨_, _ | ⟨_, _ | ⟨_, _ | _⟩⟩⟩⟩ <;> trivial)) schema hdone
    exact ⟨schema, b, hdone, hb, hmade [] (goes 3 19) _ rfl rfl⟩
  · have hat : (rewritten 18).At 2 (.invalidating (.connection "orders")) := by unfold At; rfl
    have hstart : (changed 18).At 3 (.start (.describe (some "orders") false)) := by unfold At; rfl
    obtain ⟨schema, hstoring⟩ : ∃ schema, (changed 18).At 0 (.storing (.connection "orders") schema) :=
      exists_storing (by decide +kernel)
    have hcapacity : (changed 18).cache.capacity ≠ 0 := by decide +kernel
    have hlifetime : 2 < (changed 18).cache.lifetime := by decide +kernel
    have htarget : e.resolve (changed 18).catalog (some "orders") = .ok (rotated "new") := by rfl
    have hmain := (described_after_change e .usual catalog rewriting (goes 0 18 ++ goes 1 1 ++ goes 2 1) [] 2 3 _
      (changed 18) "orders" false hkeyed hat (step_goes hat rfl rfl) hstart).2
    exact ⟨schema, hmain rfl 0 schema _ hstoring hcapacity hlifetime htarget⟩

end Rotation

end EngineState

end SemanticLayer
