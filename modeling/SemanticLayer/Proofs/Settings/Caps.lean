import SemanticLayer.Proofs.Dictionary
import SemanticLayer.Proofs.Query.Columns
import SemanticLayer.Proofs.Query.Grouping
import SemanticLayer.Proofs.Settings
import SemanticLayer.Raw
/-!
The sizes of pools and the caps on rows that the settings of a file lead to. Pools are never empty and compiled queries
never capped at zero. The cap on the values of a column and that on users' statements are taken as they are, and the
file is not searched for zeros there.
-/
namespace SemanticLayer

/-- A cap on rows that the settings of a connection put into a statement: a compiled query, one for the values of a
column, or a statement of a user. -/
inductive ConnectionSettings.Caps (c : ConnectionSettings) : Nat → String → Prop
  | query {source : Source} {request : Request} {select : Select} {plan : ResultPlan} {n : Nat} (db : Database)
      (h : source.plan c.query.limits request = .ok (select, plan)) (hlimit : select.limit = some n) :
      Caps c n (select.render db)
  | values {source : Source} {field : String} {select : Select} {n : Nat} (db : Database)
      (h : source.distinctValues c.query.limits field = .ok select) (hlimit : select.limit = some n) :
      Caps c n (select.render db)
  | raw {db : Database} {text : String} {statement : Raw.Statement} (h : Raw.prepare db c.sandbox text = .ok statement) :
      Caps c c.sandbox.rowLimit statement.limited

namespace Settings

variable {settings : Settings} {file : Document} {id : String} {c : ConnectionSettings}

/-! ## Checked sections -/

theorem validate_eq_ok_iff : settings.validate = .ok () ↔
    (∀ q ∈ settings.defaults.query :: (settings.connections.entries.map Prod.snd).filterMap OwnSettings.query,
      q.limits.greatest ≠ 0 ∧ q.limits.standard ≠ 0) ∧
    ∀ p ∈ settings.defaults.pool :: (settings.connections.entries.map Prod.snd).filterMap OwnSettings.pool,
      p.size ≠ 0 := by
  unfold validate
  dsimp only
  constructor
  · intro h
    split at h
    · simp at h
    rename_i hqueries
    split at h
    · simp at h
    rename_i hpools
    simp only [List.any_eq_true, not_exists, not_and, Bool.or_eq_true, decide_eq_true_eq, not_or] at hqueries hpools
    exact ⟨hqueries, hpools⟩
  · rintro ⟨hqueries, hpools⟩
    rw [if_neg, if_neg]
    · rfl
    · simpa only [List.any_eq_true, not_exists, not_and, decide_eq_true_eq] using hpools
    · simpa only [List.any_eq_true, not_exists, not_and, Bool.or_eq_true, decide_eq_true_eq, not_or] using hqueries

/-- A section that applies to a connection is one of those in the file. -/
theorem bind_getD_mem {α : Type} (part : OwnSettings → Option α) (usual : α) (connections : Dictionary OwnSettings)
    (id : String) :
    ((connections.get? id).bind part).getD usual ∈
      usual :: (connections.entries.map Prod.snd).filterMap part := by
  cases hown : (connections.get? id).bind part with
  | none => exact List.mem_cons_self
  | some value =>
      obtain ⟨own, hget, hpart⟩ := Option.bind_eq_some_iff.1 hown
      have hmem : own ∈ connections.entries.map Prod.snd :=
        List.mem_map_of_mem (Dictionary.get?_eq_some_iff.1 hget)
      exact List.mem_cons_of_mem _ (List.mem_filterMap.2 ⟨own, hmem, hpart⟩)

theorem size_ne_zero (h : settings.validate = .ok ()) (id : String) : (settings.forConnection id).pool.size ≠ 0 :=
  (validate_eq_ok_iff.1 h).2 _ (bind_getD_mem OwnSettings.pool settings.defaults.pool settings.connections id)

theorem validate_of_ofToml {text : String} (h : ofToml text = .ok settings) : settings.validate = .ok () := by
  unfold ofToml at h
  split at h
  · obtain ⟨hvalid, hs⟩ := bind_unit_eq_ok_iff.1 h
    obtain rfl := pure_eq_ok_iff.1 hs
    exact hvalid
  · simp at h

/-! ## Caps -/

theorem limit_of_plan {source : Source} {limits : QueryLimits} {request : Request} {select : Select}
    {plan : ResultPlan} (h : source.plan limits request = .ok (select, plan)) :
    select.limit = some (limits.clamp request.limit) := by
  obtain ⟨resolved, orders, -, rfl, -⟩ := Source.plan_eq_ok_iff.1 h
  rfl

theorem limit_of_distinctValues {source : Source} {limits : QueryLimits} {field : String} {select : Select}
    (h : source.distinctValues limits field = .ok select) : select.limit = some limits.distinct := by
  unfold Source.distinctValues at h
  split at h
  · simp at h
  · obtain rfl := Except.ok.inj h
    rfl

/-- Any settings put both of their unchecked caps into some statement. -/
theorem caps_distinct (c : ConnectionSettings) : ∃ sql, c.Caps c.query.limits.distinct sql := by
  obtain ⟨select, h⟩ : ∃ select, Source.orders.distinctValues c.query.limits "status" = .ok select := ⟨_, rfl⟩
  exact ⟨_, .values .postgresql h (limit_of_distinctValues h)⟩

theorem prepare_select (sandbox : SandboxSettings) : Raw.prepare .postgresql sandbox "SELECT 1" =
    .ok ⟨"SELECT 1", Statement.wrapInLimit "SELECT 1" sandbox.rowLimit⟩ := by
  have hvalid : Sandbox.validate .postgresql "SELECT 1" = .ok "SELECT 1" := by rfl
  rw [Raw.prepare, hvalid]
  rfl

theorem caps_rowLimit (c : ConnectionSettings) : ∃ sql, c.Caps c.sandbox.rowLimit sql :=
  ⟨_, .raw (prepare_select c.sandbox)⟩

theorem caps_positive_iff : (∀ n sql, c.Caps n sql → 1 ≤ n) ↔ c.query.limits.distinct ≠ 0 ∧ c.sandbox.rowLimit ≠ 0 := by
  constructor
  · intro h
    obtain ⟨values, hvalues⟩ := caps_distinct c
    obtain ⟨raw, hraw⟩ := caps_rowLimit c
    exact ⟨Nat.one_le_iff_ne_zero.1 (h _ _ hvalues), Nat.one_le_iff_ne_zero.1 (h _ _ hraw)⟩
  · rintro ⟨hdistinct, hrow⟩ n sql (⟨db, h, hlimit⟩ | ⟨db, h, hlimit⟩ | h)
    · rw [limit_of_plan h] at hlimit
      obtain rfl := Option.some.inj hlimit
      exact (QueryLimits.clamp_bounds _ _).1
    · rw [limit_of_distinctValues h] at hlimit
      obtain rfl := Option.some.inj hlimit
      exact Nat.one_le_iff_ne_zero.2 hdistinct
    · exact Nat.one_le_iff_ne_zero.2 hrow

theorem of_ne_zero_iff (x : Item) {source? : Option Document} (h : x.part.From source? c) (hx : x.builtIn ≠ 0) :
    x.of c ≠ 0 ↔ x.setIn? source? ≠ some 0 := by
  rw [h.of_eq]
  cases x.setIn? source? with
  | none => simp [hx]
  | some value => simp

theorem caps_compile {source : Source} {db : Database} {request : Request} {compiled : CompiledQuery}
    (h : source.compile c.query.limits db request = .ok compiled) :
    1 ≤ compiled.limit ∧ c.Caps compiled.limit compiled.sql := by
  obtain ⟨⟨select, plan⟩, hplan, hcompiled⟩ := bind_eq_ok_iff.1 h
  obtain rfl := pure_eq_ok_iff.1 hcompiled
  have hcaps : c.Caps (c.query.limits.clamp request.limit) (select.render db) :=
    .query db hplan (limit_of_plan hplan)
  exact ⟨(QueryLimits.clamp_bounds _ _).1, hcaps⟩

/-- The settings of a file give each connection a pool that is not empty, and each compiled query a cap that is not
zero. All caps are above zero exactly if the sections that apply to the connection set neither the cap on the values of
a column nor that on users' statements to zero. -/
theorem forConnection_caps {text : String} (h : ofToml text = .ok settings) :
    ∃ file, Toml.read? text = some file ∧ ∀ id,
      1 ≤ (settings.forConnection id).pool.size ∧
      (∀ source db request compiled, Source.compile source (settings.forConnection id).query.limits db request =
        .ok compiled → 1 ≤ compiled.limit ∧ (settings.forConnection id).Caps compiled.limit compiled.sql) ∧
      ((∀ n sql, (settings.forConnection id).Caps n sql → 1 ≤ n) ↔
        ∀ x ∈ [Item.distinctLimit, Item.rowLimit],
          x.setIn? ((ownSection? file id x.part).or (sharedSection? file x.part)) ≠ some 0) := by
  obtain ⟨file, hread, hfile⟩ := ofDocument?_of_ofToml h
  refine ⟨file, hread, fun id => ⟨?_, fun _ _ _ _ => caps_compile, ?_⟩⟩
  · exact Nat.one_le_iff_ne_zero.2 (size_ne_zero (validate_of_ofToml h) id)
  · have hset (x : Item) := of_ne_zero_iff x (from_file hfile id x.part) (by cases x <;> decide)
    rw [caps_positive_iff, List.forall_mem_cons, List.forall_mem_singleton]
    exact and_congr (hset .distinctLimit) (hset .rowLimit)

/-- A file in which both caps are zero for all connections but one, which has sections of its own. -/
def zeroFile : String :=
  "[defaults.query]\ndistinct_value_limit = 0\n[defaults.sandbox]\nrow_limit = 0\n" ++
  "[connections.main.query]\ntimeout_ms = 60000\n[connections.main.sandbox]\ntimeout_ms = 60000\n"

theorem exists_zeroFile : ∃ settings file, ofToml zeroFile = .ok settings ∧ Toml.read? zeroFile = some file ∧
    settings.forConnection "other" = ⟨⟨30000, ⟨1000, 10000, 0⟩⟩, ⟨30000, 0⟩, ⟨10, 10000⟩⟩ ∧
    settings.forConnection "main" = ⟨⟨60000, ⟨1000, 10000, 500⟩⟩, ⟨60000, 1000⟩, ⟨10, 10000⟩⟩ := by
  have hvalues : (ofToml zeroFile).toOption.map (fun s => (s.forConnection "other", s.forConnection "main")) =
      some (⟨⟨30000, ⟨1000, 10000, 0⟩⟩, ⟨30000, 0⟩, ⟨10, 10000⟩⟩,
        ⟨⟨60000, ⟨1000, 10000, 500⟩⟩, ⟨60000, 1000⟩, ⟨10, 10000⟩⟩) := by decide +kernel
  obtain ⟨settings, hsettings, hvalues⟩ := Option.map_eq_some_iff.1 hvalues
  obtain ⟨hother, hmain⟩ := Prod.mk.inj hvalues
  have hok := eq_ok_of_toOption hsettings
  obtain ⟨file, hfile, -⟩ := ofDocument?_of_ofToml hok
  exact ⟨settings, file, hok, hfile, hother, hmain⟩

theorem forConnection_caps_sections : ∃ settings file, ofToml zeroFile = .ok settings ∧
    Toml.read? zeroFile = some file ∧
    (∀ n sql, (settings.forConnection "main").Caps n sql → 1 ≤ n) ∧
    Item.distinctLimit.setIn? ((ownSection? file "main" .query).or (sharedSection? file .query)) ≠ some 0 ∧
    1 ≤ (settings.forConnection "other").pool.size ∧
    ¬∀ n sql, (settings.forConnection "other").Caps n sql → 1 ≤ n := by
  obtain ⟨settings, file, hok, hfile, hother, hmain⟩ := exists_zeroFile
  obtain ⟨file', hfile', h⟩ := forConnection_caps hok
  obtain rfl := Option.some.inj (hfile.symm.trans hfile')
  have hpositive : ∀ n sql, (settings.forConnection "main").Caps n sql → 1 ≤ n := by
    rw [caps_positive_iff, hmain]
    decide
  refine ⟨settings, file, hok, hfile, hpositive, (h "main").2.2.1 hpositive .distinctLimit (by simp),
    (h "other").1, ?_⟩
  rw [caps_positive_iff, hother]
  decide

/-- A file is accepted under which the values of a column and users' statements are capped at no rows. -/
theorem caps_zero : ∃ settings, ofToml zeroFile = .ok settings ∧
    (settings.forConnection "other").Caps 0
      ("SELECT DISTINCT o.status AS \"value\" FROM orders o WHERE o.status IS NOT NULL " ++
        "ORDER BY \"value\" ASC LIMIT 0") ∧
    (settings.forConnection "other").Caps 0 "SELECT * FROM (\nSELECT 1\n) AS __result LIMIT 0" := by
  obtain ⟨settings, file, hok, -, hother, -⟩ := exists_zeroFile
  refine ⟨settings, hok, ?_, ?_⟩
  · have hvalues : (Source.orders.distinctValues ⟨1000, 10000, 0⟩ "status").toOption.map
        (fun select => (select.limit, select.render .postgresql)) =
        some (some 0, "SELECT DISTINCT o.status AS \"value\" FROM orders o WHERE o.status IS NOT NULL " ++
          "ORDER BY \"value\" ASC LIMIT 0") := by decide +kernel
    obtain ⟨select, hselect, hvalues⟩ := Option.map_eq_some_iff.1 hvalues
    obtain ⟨hlimit, hsql⟩ := Prod.mk.inj hvalues
    rw [hother, ← hsql]
    exact .values .postgresql (eq_ok_of_toOption hselect) hlimit
  · have hraw := prepare_select (settings.forConnection "other").sandbox
    rw [hother] at hraw ⊢
    exact .raw hraw

end Settings

end SemanticLayer
