import SemanticLayer.Proofs.Checks
import SemanticLayer.Proofs.Document
import SemanticLayer.Settings
/-!
Where the settings of a connection come from. A file can set them for all connections and for single ones, and what a
connection has of its own takes the place of what is set for all, section by section. So a section of a connection
that sets only some of its values puts the others back to what they are without a file.
-/
namespace SemanticLayer

namespace Settings

/-- The sections that a connection can have of its own. -/
inductive Part where
  | query
  | sandbox
  | pool

/-- The single settings of these sections. -/
inductive Item where
  | queryTimeout
  | greatestLimit
  | standardLimit
  | distinctLimit
  | sandboxTimeout
  | rowLimit
  | poolSize
  | connectTimeout

namespace Part

def name : Part → String
  | query => "query"
  | sandbox => "sandbox"
  | pool => "pool"

def keys : Part → List String
  | query => ["timeout_ms", "max_row_limit", "default_row_limit", "distinct_value_limit"]
  | sandbox => ["timeout_ms", "row_limit"]
  | pool => ["size", "connect_timeout_ms"]

end Part

namespace Item

def part : Item → Part
  | queryTimeout | greatestLimit | standardLimit | distinctLimit => .query
  | sandboxTimeout | rowLimit => .sandbox
  | poolSize | connectTimeout => .pool

def key : Item → String
  | queryTimeout => "timeout_ms"
  | greatestLimit => "max_row_limit"
  | standardLimit => "default_row_limit"
  | distinctLimit => "distinct_value_limit"
  | sandboxTimeout => "timeout_ms"
  | rowLimit => "row_limit"
  | poolSize => "size"
  | connectTimeout => "connect_timeout_ms"

def builtIn : Item → Nat
  | queryTimeout => 30000
  | greatestLimit => 10000
  | standardLimit => 1000
  | distinctLimit => 500
  | sandboxTimeout => 30000
  | rowLimit => 1000
  | poolSize => 10
  | connectTimeout => 10000

def of (c : ConnectionSettings) : Item → Nat
  | queryTimeout => c.query.timeout
  | greatestLimit => c.query.limits.greatest
  | standardLimit => c.query.limits.standard
  | distinctLimit => c.query.limits.distinct
  | sandboxTimeout => c.sandbox.timeout
  | rowLimit => c.sandbox.rowLimit
  | poolSize => c.pool.size
  | connectTimeout => c.pool.connectTimeout

/-- The value that a section sets, if it does. -/
def setIn? (x : Item) (source? : Option Document) : Option Nat :=
  source?.bind fun d => (d.given? x.part.keys x.key).bind (Document.unsigned? 64)

end Item

/-- The section that a file has for a connection. -/
def ownSection? (file : Document) (id : String) (p : Part) : Option Document := do
  let connections ← file.given? ["defaults", "connections", "app_database"] "connections"
  let own ← connections.under? id
  own.given? ["query", "sandbox", "pool"] p.name

def sharedSection? (file : Document) (p : Part) : Option Document := do
  let defaults ← file.given? ["defaults", "connections", "app_database"] "defaults"
  defaults.given? ["query", "sandbox", "pool", "schema_cache"] p.name

/-- Each setting from the connection's own section, else from the section for all connections, else as it is without
a file. -/
def merged (file : Document) (id : String) (x : Item) : Nat :=
  ((x.setIn? (ownSection? file id x.part)).or (x.setIn? (sharedSection? file x.part))).getD x.builtIn

variable {file d : Document} {settings : Settings} {id : String} {x : Item} {p : Part} {source? : Option Document}
  {c : ConnectionSettings}

/-! ## Sections -/

theorem of_query (h : QuerySettings.ofDocument? d = some c.query) (hx : x.part = .query) :
    x.of c = (x.setIn? (some d)).getD x.builtIn := by
  simp only [QuerySettings.ofDocument?, Option.bind_eq_bind, Option.bind_eq_some_iff, Option.pure_def,
    Option.some.injEq] at h
  obtain ⟨f, hf, timeout, htimeout, greatest, hgreatest, standard, hstandard, distinct, hdistinct, hq⟩ := h
  cases x with
  | queryTimeout =>
      exact (congrArg QuerySettings.timeout hq).symm.trans (Document.orElse_eq_some hf (by decide) htimeout)
  | greatestLimit =>
      exact (congrArg (·.limits.greatest) hq).symm.trans (Document.orElse_eq_some hf (by decide) hgreatest)
  | standardLimit =>
      exact (congrArg (·.limits.standard) hq).symm.trans (Document.orElse_eq_some hf (by decide) hstandard)
  | distinctLimit =>
      exact (congrArg (·.limits.distinct) hq).symm.trans (Document.orElse_eq_some hf (by decide) hdistinct)
  | _ => simp [Item.part] at hx

theorem of_sandbox (h : SandboxSettings.ofDocument? d = some c.sandbox) (hx : x.part = .sandbox) :
    x.of c = (x.setIn? (some d)).getD x.builtIn := by
  simp only [SandboxSettings.ofDocument?, Option.bind_eq_bind, Option.bind_eq_some_iff, Option.pure_def,
    Option.some.injEq] at h
  obtain ⟨f, hf, timeout, htimeout, rowLimit, hrowLimit, hs⟩ := h
  cases x with
  | sandboxTimeout =>
      exact (congrArg SandboxSettings.timeout hs).symm.trans (Document.orElse_eq_some hf (by decide) htimeout)
  | rowLimit =>
      exact (congrArg SandboxSettings.rowLimit hs).symm.trans (Document.orElse_eq_some hf (by decide) hrowLimit)
  | _ => simp [Item.part] at hx

theorem of_pool (h : PoolSettings.ofDocument? d = some c.pool) (hx : x.part = .pool) :
    x.of c = (x.setIn? (some d)).getD x.builtIn := by
  simp only [PoolSettings.ofDocument?, Option.bind_eq_bind, Option.bind_eq_some_iff, Option.pure_def,
    Option.some.injEq] at h
  obtain ⟨f, hf, size, hsize, connectTimeout, hconnectTimeout, hp⟩ := h
  cases x with
  | poolSize => exact (congrArg PoolSettings.size hp).symm.trans (Document.orElse_eq_some hf (by decide) hsize)
  | connectTimeout =>
      exact (congrArg PoolSettings.connectTimeout hp).symm.trans
        (Document.orElse_eq_some hf (by decide) hconnectTimeout)
  | _ => simp [Item.part] at hx

/-- The settings of one section are decoded from what a file has for it, or without that the usual ones. -/
def Part.From (source? : Option Document) (c : ConnectionSettings) : Part → Prop
  | query => (source?.map QuerySettings.ofDocument?).getD (some .usual) = some c.query
  | sandbox => (source?.map SandboxSettings.ofDocument?).getD (some .usual) = some c.sandbox
  | pool => (source?.map PoolSettings.ofDocument?).getD (some .usual) = some c.pool

theorem Part.From.of_usual (h : x.part.From none c) : x.of c = x.builtIn := by
  cases x with
  | queryTimeout | greatestLimit | standardLimit | distinctLimit =>
      have hq : QuerySettings.usual = c.query := Option.some.inj h
      rw [Item.of, ← hq]
      rfl
  | sandboxTimeout | rowLimit =>
      have hs : SandboxSettings.usual = c.sandbox := Option.some.inj h
      rw [Item.of, ← hs]
      rfl
  | poolSize | connectTimeout =>
      have hp : PoolSettings.usual = c.pool := Option.some.inj h
      rw [Item.of, ← hp]
      rfl

theorem Part.From.of_eq (h : x.part.From source? c) : x.of c = (x.setIn? source?).getD x.builtIn := by
  cases source? with
  | none => exact h.of_usual
  | some d =>
      cases hx : x.part with
      | query => exact of_query (by rw [hx] at h; exact h) hx
      | sandbox => exact of_sandbox (by rw [hx] at h; exact h) hx
      | pool => exact of_pool (by rw [hx] at h; exact h) hx

/-! ## Files -/

theorem section_eq_some {α : Type} {f : Document.Fields} {names : List String} {name : String}
    {decode : Document → Option α} {own : Option α} (h : d.fields? names = some f) (hname : name ∈ names)
    (hown : f.section? name decode = some own) : (d.given? names name).map decode = own.map some := by
  rw [Document.Fields.section?, Document.orElse_eq h hname] at hown
  cases hgiven : d.given? names name with
  | none =>
      rw [hgiven] at hown
      obtain rfl := Option.some.inj hown
      rfl
  | some e =>
      rw [hgiven, Option.map_some, Option.getD_some, Option.map_eq_some_iff] at hown
      obtain ⟨value, hvalue, rfl⟩ := hown
      rw [Option.map_some, hvalue, Option.map_some]

/-- Where two sections can be given, the first one counts. -/
theorem decoded_or {α : Type} {decode : Document → Option α} {own? shared? : Option Document} {own : Option α}
    {shared usual : α} (hown : own?.map decode = own.map some)
    (hshared : (shared?.map decode).getD (some usual) = some shared) :
    ((own?.or shared?).map decode).getD (some usual) = some (own.getD shared) := by
  cases own? with
  | none =>
      have hnone : own = none := by simpa using hown.symm
      rw [hnone, Option.none_or, hshared, Option.getD_none]
  | some d =>
      obtain ⟨value, rfl⟩ : ∃ value, own = some value := by
        cases own with
        | none => simp at hown
        | some value => exact ⟨value, rfl⟩
      exact Option.some.inj hown

/-- A section of a connection's own settings is decoded from what a file has for it. -/
def Part.Owned (source? : Option Document) (own : Option OwnSettings) : Part → Prop
  | query => source?.map QuerySettings.ofDocument? = (own.bind OwnSettings.query).map some
  | sandbox => source?.map SandboxSettings.ofDocument? = (own.bind OwnSettings.sandbox).map some
  | pool => source?.map PoolSettings.ofDocument? = (own.bind OwnSettings.pool).map some

theorem owned_none (p : Part) : p.Owned none none := by
  cases p <;> rfl

theorem owned_given {own : OwnSettings} (h : OwnSettings.ofDocument? d = some own) (p : Part) :
    p.Owned (d.given? ["query", "sandbox", "pool"] p.name) (some own) := by
  simp only [OwnSettings.ofDocument?, Option.bind_eq_bind, Option.bind_eq_some_iff, Option.pure_def,
    Option.some.injEq] at h
  obtain ⟨f, hf, query, hquery, sandbox, hsandbox, pool, hpool, rfl⟩ := h
  cases p with
  | query => exact section_eq_some hf (by decide) hquery
  | sandbox => exact section_eq_some hf (by decide) hsandbox
  | pool => exact section_eq_some hf (by decide) hpool

theorem from_usual (p : Part) : p.From none ⟨.usual, .usual, .usual⟩ := by
  cases p <;> rfl

theorem from_given {defaults : DefaultSettings} (h : DefaultSettings.ofDocument? d = some defaults) (p : Part) :
    p.From (d.given? ["query", "sandbox", "pool", "schema_cache"] p.name)
      ⟨defaults.query, defaults.sandbox, defaults.pool⟩ := by
  simp only [DefaultSettings.ofDocument?, Option.bind_eq_bind, Option.bind_eq_some_iff, Option.pure_def,
    Option.some.injEq] at h
  obtain ⟨f, hf, query, hquery, sandbox, hsandbox, pool, hpool, cache, -, rfl⟩ := h
  cases p with
  | query => exact (Document.orElse_eq hf (by decide)).symm.trans hquery
  | sandbox => exact (Document.orElse_eq hf (by decide)).symm.trans hsandbox
  | pool => exact (Document.orElse_eq hf (by decide)).symm.trans hpool

theorem forConnection_from {shared? own? : Option Document} (hown : p.Owned own? (settings.connections.get? id))
    (hshared : p.From shared? ⟨settings.defaults.query, settings.defaults.sandbox, settings.defaults.pool⟩) :
    p.From (own?.or shared?) (settings.forConnection id) := by
  cases p <;> exact decoded_or hown hshared

theorem from_file (h : ofDocument? file = some settings) (id : String) (p : Part) :
    p.From ((ownSection? file id p).or (sharedSection? file p)) (settings.forConnection id) := by
  simp only [ofDocument?, Option.bind_eq_bind, Option.bind_eq_some_iff, Option.pure_def, Option.some.injEq] at h
  obtain ⟨f, hf, defaults, hdefaults, connections, hconnections, application, -, rfl⟩ := h
  rw [Document.orElse_eq hf (by decide)] at hdefaults hconnections
  refine forConnection_from ?_ ?_
  · unfold ownSection?
    cases hgiven : file.given? ["defaults", "connections", "app_database"] "connections" with
    | none =>
        rw [hgiven] at hconnections
        obtain rfl := Option.some.inj hconnections
        exact owned_none p
    | some d =>
        rw [hgiven] at hconnections
        have hunder := Document.map_under? hconnections id
        rw [Option.bind_eq_bind, Option.bind_some]
        cases hd : d.under? id with
        | none =>
            rw [hd] at hunder
            have hnone : connections.get? id = none := by simpa using hunder.symm
            rw [hnone]
            exact owned_none p
        | some e =>
            rw [hd] at hunder
            cases hget : connections.get? id with
            | none => simp [hget] at hunder
            | some own =>
                rw [hget] at hunder
                exact owned_given (Option.some.inj hunder) p
  · unfold sharedSection?
    cases hgiven : file.given? ["defaults", "connections", "app_database"] "defaults" with
    | none =>
        rw [hgiven] at hdefaults
        obtain rfl := Option.some.inj hdefaults
        exact from_usual p
    | some d =>
        rw [hgiven] at hdefaults
        exact from_given hdefaults p

theorem ofDocument?_of_ofToml {text : String} (h : ofToml text = .ok settings) :
    ∃ file, Toml.read? text = some file ∧ ofDocument? file = some settings := by
  unfold ofToml at h
  split at h
  · rename_i s hs
    obtain ⟨-, hs'⟩ := bind_unit_eq_ok_iff.1 h
    obtain rfl := pure_eq_ok_iff.1 hs'
    exact Option.bind_eq_some_iff.1 hs
  · simp at h

/-- A setting of a connection is what its own section sets, or where it has no such section what the section for all
connections sets, or else what it is without a file. This is what merging single settings gives, unless the
connection's own section leaves out a setting that the section for all connections changes. -/
theorem forConnection_sections {text : String} (h : ofToml text = .ok settings) :
    ∃ file, Toml.read? text = some file ∧ ∀ id x,
      x.of (settings.forConnection id) =
        (x.setIn? ((ownSection? file id x.part).or (sharedSection? file x.part))).getD x.builtIn ∧
      (x.of (settings.forConnection id) = merged file id x ↔
        ∀ value, (ownSection? file id x.part).isSome → x.setIn? (ownSection? file id x.part) = none →
          x.setIn? (sharedSection? file x.part) = some value → value = x.builtIn) := by
  obtain ⟨file, hread, hfile⟩ := ofDocument?_of_ofToml h
  refine ⟨file, hread, ?_⟩
  intro id x
  have hvalue := (from_file hfile id x.part).of_eq
  refine ⟨hvalue, ?_⟩
  rw [hvalue, merged]
  cases ownSection? file id x.part with
  | none =>
      have hnone : x.setIn? none = none := rfl
      simp [hnone]
  | some own =>
      rw [Option.some_or]
      cases hown : x.setIn? (some own) with
      | some value => simp
      | none =>
          cases hshared : x.setIn? (sharedSection? file x.part) with
          | none => simp
          | some value => simp [eq_comm]

/-- A file that limits the rows of all queries, and for one connection sets the time allowed and nothing else. -/
def limitedFile : String :=
  "[defaults.query]\nmax_row_limit = 500\n[connections.main.query]\ntimeout_ms = 60000\n"

theorem exists_limitedFile : ∃ settings file, ofToml limitedFile = .ok settings ∧
    Toml.read? limitedFile = some file ∧ Item.greatestLimit.of (settings.forConnection "main") = 10000 ∧
    merged file "main" .greatestLimit = 500 := by
  have hvalue : (ofToml limitedFile).toOption.map (fun s => Item.greatestLimit.of (s.forConnection "main")) =
      some 10000 := by decide +kernel
  have hmerged : (Toml.read? limitedFile).map (fun file => merged file "main" .greatestLimit) = some 500 := by
    decide +kernel
  obtain ⟨file, hfile, hmerged⟩ := Option.map_eq_some_iff.1 hmerged
  obtain ⟨settings, hsettings, hvalue⟩ := Option.map_eq_some_iff.1 hvalue
  exact ⟨settings, file, eq_ok_of_toOption hsettings, hfile, hvalue, hmerged⟩

theorem forConnection_sections_limited : ∃ settings file, ofToml limitedFile = .ok settings ∧
    Toml.read? limitedFile = some file ∧
    Item.greatestLimit.of (settings.forConnection "main") =
      (Item.greatestLimit.setIn? ((ownSection? file "main" .query).or (sharedSection? file .query))).getD 10000 ∧
    Item.greatestLimit.of (settings.forConnection "main") ≠ merged file "main" .greatestLimit := by
  obtain ⟨settings, file, hsettings, hfile, hvalue, hmerged⟩ := exists_limitedFile
  obtain ⟨file', hfile', h⟩ := forConnection_sections hsettings
  obtain rfl := Option.some.inj (hfile.symm.trans hfile')
  refine ⟨settings, file, hsettings, hfile, (h "main" .greatestLimit).1, ?_⟩
  rw [hvalue, hmerged]
  decide

/-- Settings are not merged one by one: the limit on rows that holds for all connections is lifted. -/
theorem limit_lifted : ¬∀ (text : String) (settings : Settings), ofToml text = .ok settings →
    ∃ file, Toml.read? text = some file ∧ ∀ id x, x.of (settings.forConnection id) = merged file id x := by
  intro h
  obtain ⟨settings, file, hsettings, hfile, hvalue, hmerged⟩ := exists_limitedFile
  obtain ⟨file', hfile', h⟩ := h limitedFile settings hsettings
  obtain rfl := Option.some.inj (hfile.symm.trans hfile')
  have heq := h "main" .greatestLimit
  rw [hvalue, hmerged] at heq
  exact absurd heq (by decide)

end Settings

end SemanticLayer
