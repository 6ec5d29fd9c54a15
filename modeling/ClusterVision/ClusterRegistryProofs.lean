import ClusterVision.ClusterService
import ClusterVision.ReplayProofs

/-! # What _update_configs writes

    An update of the cluster registry that runs alone either raises what
    `mutate` raises and writes nothing, or leaves exactly the configurations
    that `mutate` returned. -/

namespace CvCluster

open CvProg CvTable CvIso CvKube CvBackend CvHttp CvReplay

/-! ## Statements -/

/-- The database with other clusters. -/
def withConfigs (d : Database) (t : ConfigDict) : Database :=
  { d with registeredClusters := t }

@[simp] theorem withConfigs_registeredClusters (d : Database)
    (t : ConfigDict) : (withConfigs d t).registeredClusters = t := rfl

/-- A statement on `registered_clusters`. -/
def clusterWrite : Stmt RegisteredCluster String → DbWrite
  | .insert c => .insertRegisteredCluster c
  | .update c => .updateRegisteredCluster c
  | .delete name => .deleteRegisteredCluster name

theorem apply_clusterWrite {d : Database} {s : Stmt RegisteredCluster String}
    {t : ConfigDict} (h : s.run d.registeredClusters = some t) :
    (clusterWrite s).apply d = .ok (withConfigs d t) := by
  cases s with
  | insert c =>
      rw [Stmt.run] at h
      rw [clusterWrite, DbWrite.apply]
      cases hget : d.registeredClusters.get c.name with
      | none =>
          rw [hget] at h
          rw [← Option.some.inj h]
          rfl
      | some old =>
          rw [hget] at h
          cases h
  | update c =>
      rw [Stmt.run] at h
      rw [clusterWrite, DbWrite.apply]
      cases hget : d.registeredClusters.get c.name with
      | none =>
          rw [hget] at h
          cases h
      | some old =>
          rw [hget] at h
          rw [← Option.some.inj h]
          rfl
  | delete name =>
      rw [← Option.some.inj h]
      rfl

/-- Statements on one table of the database, as one transaction, from what one
    statement does. -/
theorem applyWrites_stmts {α κ : Type} [DecidableEq κ] {key : α → κ}
    {view : Database → Table α key} {set : Database → Table α key → Database}
    {write : Stmt α κ → DbWrite}
    (hone : ∀ {d s t}, s.run (view d) = some t →
      (write s).apply d = .ok (set d t))
    (hself : ∀ d, set d (view d) = d) (hview : ∀ d t, view (set d t) = t)
    (hset : ∀ d t t', set (set d t) t' = set d t') (ss : List (Stmt α κ)) :
    ∀ {d : Database} {t : Table α key}, runAll (view d) ss = some t →
      applyWrites d (ss.map write) = .ok (set d t) := by
  induction ss with
  | nil =>
      intro d t h
      rw [← Option.some.inj h, hself]
      rfl
  | cons s ss ih =>
      intro d t h
      rw [runAll_cons] at h
      rw [List.map_cons, applyWrites]
      cases hs : s.run (view d) with
      | none =>
          rw [hs] at h
          exact nomatch h
      | some t₁ =>
          rw [hs, Option.bind_some] at h
          rw [hone hs, ← hset d t₁ t]
          refine ih ?_
          rw [hview]
          exact h

/-- The statements of an update of the clusters. -/
theorem applyWrites_clusterWrite (ss : List (Stmt RegisteredCluster String))
    {d : Database} {t : ConfigDict}
    (h : runAll d.registeredClusters ss = some t) :
    applyWrites d (ss.map clusterWrite) = .ok (withConfigs d t) :=
  applyWrites_stmts apply_clusterWrite (fun _ => rfl) (fun _ _ => rfl)
    (fun _ _ _ => rfl) ss h

/-! ## The two loops -/

/-- The configurations of a dictionary make up that dictionary. -/
@[simp] theorem configDict_rows (t : ConfigDict) : configDict t.rows = t :=
  Table.foldl_put_rows t

/-- Is the name registered? -/
def registered (w : World) (name : String) : Bool :=
  (w.db.registeredClusters.get name).isSome

theorem run_loadConfigs (w : World) :
    loadConfigs.run handle w = (.ok w.db.registeredClusters.rows, w) := by
  rw [loadConfigs, Prog.run_ensuring, run_db]
  rfl

theorem run_deleteConfig (ws : List DbWrite) (name : String) (w : World) :
    (deleteConfig ws name).run handle w
      = (.ok (ws ++ if registered w name
          then [.deleteRegisteredCluster name] else []), w) := by
  have hget : handle (.db (.getRegisteredCluster name)) w
      = (.ok (w.db.registeredClusters.get name), w) := rfl
  rw [deleteConfig, Prog.run_bind, run_db, hget, Prog.andThen_ok, registered]
  cases w.db.registeredClusters.get name with
  | none =>
      show _ = (Except.ok (ws ++ []), w)
      rw [List.append_nil]
      rfl
  | some c => rfl

theorem run_deleteConfigs (names : List String) (w : World) :
    ∀ ws : List DbWrite, (names.foldlM deleteConfig ws).run handle w
      = (.ok (ws ++ (names.filter (registered w)).map
          DbWrite.deleteRegisteredCluster), w) := by
  induction names with
  | nil =>
      intro ws
      show _ = (Except.ok (ws ++ []), w)
      rw [List.append_nil]
      rfl
  | cons name names ih =>
      intro ws
      rw [List.foldlM_cons, Prog.run_bind, run_deleteConfig, Prog.andThen_ok,
        ih, List.filter_cons]
      cases registered w name with
      | true =>
          rw [if_pos rfl, if_pos rfl, List.map_cons, List.append_assoc]
          rfl
      | false =>
          rw [if_neg nofun, if_neg nofun, List.append_nil]

/-- The statements for the new configurations. -/
abbrev ConfigReplay (before : ConfigDict) (found : String → Bool → Prop) :
    List RegisteredCluster → List (Stmt RegisteredCluster String) → Prop :=
  Replay RegisteredCluster.name (fun e r => r = e) before.get found

theorem run_writeConfigs (before : ConfigDict) (w : World)
    (cfgs : List RegisteredCluster) :
    ∀ ws : List DbWrite, ∃ ss,
      (cfgs.foldlM (writeConfig before) ws).run handle w
        = (.ok (ws ++ ss.map clusterWrite), w) ∧
      ConfigReplay before (fun name b => registered w name = b) cfgs ss := by
  induction cfgs with
  | nil =>
      intro ws
      refine ⟨[], ?_, .nil⟩
      show _ = (Except.ok (ws ++ []), w)
      rw [List.append_nil]
      rfl
  | cons cfg cfgs ih =>
      intro ws
      have hget : handle (.db (.getRegisteredCluster cfg.name)) w
          = (.ok (w.db.registeredClusters.get cfg.name), w) := rfl
      rw [List.foldlM_cons, Prog.run_bind, writeConfig, Prog.run_bind, run_db,
        hget, Prog.andThen_ok]
      cases hold : w.db.registeredClusters.get cfg.name with
      | none =>
          have habsent : registered w cfg.name = false := by
            rw [registered, hold]
            rfl
          obtain ⟨ss, hrun, hss⟩ := ih (ws ++ [.insertRegisteredCluster cfg])
          refine ⟨.insert cfg :: ss, ?_, .insert habsent rfl hss⟩
          rw [List.map_cons, ← List.append_cons] at *
          exact hrun
      | some old =>
          have hpresent : registered w cfg.name = true := by
            rw [registered, hold]
            rfl
          by_cases hsame : before.get cfg.name = some cfg
          · obtain ⟨ss, hrun, hss⟩ := ih ws
            refine ⟨ss, ?_, .same hpresent hsame hss⟩
            simp only [hsame, ne_eq, not_true_eq_false, if_false]
            exact hrun
          · obtain ⟨ss, hrun, hss⟩ := ih (ws ++ [.updateRegisteredCluster cfg])
            refine ⟨.update cfg :: ss, ?_, .update hpresent hsame rfl hss⟩
            simp only [hsame, ne_eq, not_false_eq_true, if_true]
            rw [List.map_cons, ← List.append_cons] at *
            exact hrun

/-! ## Updates -/

/-- An update that runs alone. -/
theorem run_updateConfigs
    (mutate : List RegisteredCluster → Except Exn (List RegisteredCluster))
    (w : World) :
    (∃ e, mutate w.db.registeredClusters.rows = .error e ∧
        (updateConfigs mutate).run handle w = (.error e, w)) ∨
      ∃ cfgs t, mutate w.db.registeredClusters.rows = .ok cfgs ∧
        (updateConfigs mutate).run handle w
          = (.ok (), w.setDb (withConfigs w.db t)) ∧
        ∀ name, t.get name = (configDict cfgs).get name := by
  rw [updateConfigs, Prog.run_ensuring, Prog.run_bind, run_loadConfigs,
    Prog.andThen_ok, configDict_rows, Prog.run_bind, Prog.run_ofExcept]
  cases hmutate : mutate w.db.registeredClusters.rows with
  | error e => exact Or.inl ⟨e, rfl, rfl⟩
  | ok cfgs =>
      refine Or.inr ?_
      obtain ⟨ss, hrun, hss⟩ := run_writeConfigs w.db.registeredClusters w
        (configDict cfgs).rows (((removedNames w.db.registeredClusters
          (configDict cfgs)).filter (registered w)).map
            DbWrite.deleteRegisteredCluster)
      have hmeant : Meant RegisteredCluster.name
          (fun name b => registered w name = b) (fun _ => True)
          w.db.registeredClusters (configDict cfgs)
          ((removedNames w.db.registeredClusters (configDict cfgs)).filter
            (registered w)) w.db.registeredClusters := by
        refine ⟨fun k h => absurd trivial h, fun k _ => rfl,
          fun k b _ h => h, fun k b h => absurd trivial h, ?_, ?_⟩
        · intro k hk
          obtain ⟨hk, -⟩ := List.mem_filter.mp hk
          obtain ⟨hmem, hnone⟩ := List.mem_filter.mp hk
          exact ⟨Table.mem_keys_iff.mp hmem, Option.isNone_iff_eq_none.mp hnone⟩
        · intro k hthere hnone
          refine Or.inl (List.mem_filter.mpr ⟨List.mem_filter.mpr
            ⟨Table.mem_keys_iff.mpr hthere, ?_⟩, ?_⟩)
          · rw [hnone]
            rfl
          · exact Option.isSome_iff_ne_none.mpr hthere
      obtain ⟨t, ht, -, hleaves⟩ := hmeant.runAll
        (fun e r (h : r = e) => congrArg RegisteredCluster.name h) hss
      refine ⟨cfgs, t, rfl, ?_, ?_⟩
      · have hcommit : handle (.db (.commit
            (((removedNames w.db.registeredClusters
              (configDict cfgs)).filter (registered w)).map
                DbWrite.deleteRegisteredCluster ++ ss.map clusterWrite))) w
            = (.ok (), w.setDb (withConfigs w.db t)) := by
          have hall := handle_commit_ok (applyWrites_clusterWrite _ ht)
          rw [List.map_append, List.map_map] at hall
          exact hall
        rw [Prog.andThen_ok, Prog.run_bind, run_deleteConfigs,
          Prog.andThen_ok, Prog.run_bind, List.nil_append, hrun,
          Prog.andThen_ok, run_db, hcommit]
        rfl
      -- a row that was not rewritten is the one that was loaded
      · intro name
        have hl := hleaves name trivial
        cases hnew : (configDict cfgs).get name with
        | none =>
            rw [hnew] at hl
            exact hl
        | some e =>
            rw [hnew] at hl
            rcases hl with ⟨hbefore, hkept⟩ | ⟨-, r, hr, hwritten⟩
            · rw [hkept, hbefore]
            · rw [hwritten, hr]

/-! ## Registering and removing clusters -/

/-- Is there a row with this name? -/
theorem any_name_iff (t : ConfigDict) (name : String) :
    t.rows.any (fun d => decide (d.name = name)) = (t.get name).isSome := by
  cases hget : t.get name with
  | some c =>
      rw [Option.isSome_some, List.any_eq_true]
      exact ⟨c, Table.mem_of_get hget, decide_eq_true (Table.key_of_get hget)⟩
  | none =>
      rw [Option.isSome_none, List.any_eq_false]
      intro d hd
      rw [decide_eq_true_eq]
      exact Table.get_eq_none_iff.mp hget d hd

/-- What a registration needs to go through. -/
structure Accepted (w : World) (reachable : Except Exn Unit)
    (c : RegisteredCluster) : Prop where
  notLocal : c.name ≠ localCluster
  reached : reachable = .ok ()
  absent : registered w c.name = false

/-- A registration writes its row, or is refused. -/
theorem run_addCluster (reachable : Except Exn Unit) (c : RegisteredCluster)
    (w : World) :
    (∃ e, (addCluster reachable c).run handle w = (.error e, w) ∧
        ¬ Accepted w reachable c) ∨
      ∃ t, (addCluster reachable c).run handle w
          = (.ok ⟨c.name, c.apiUrl, false⟩, w.setDb (withConfigs w.db t)) ∧
        Accepted w reachable c ∧
        ∀ name, t.get name
          = if name = c.name then some c
            else w.db.registeredClusters.get name := by
  rw [addCluster]
  by_cases hlocal : c.name = localCluster
  · rw [if_pos hlocal]
    exact Or.inl ⟨_, rfl, fun h => h.notLocal hlocal⟩
  · rw [if_neg hlocal, Prog.run_bind, Prog.run_ofExcept]
    cases hreach : reachable with
    | error e => exact Or.inl ⟨e, rfl, fun h => nomatch h.reached⟩
    | ok u =>
        rw [Prog.andThen_ok, Prog.run_bind]
        rcases run_updateConfigs (appendConfig c) w with
          ⟨e, hmutate, hrun⟩ | ⟨cfgs, t, hmutate, hrun, hget⟩
        · rw [hrun]
          refine Or.inl ⟨e, rfl, ?_⟩
          intro h
          have hany := any_name_iff w.db.registeredClusters c.name
          rw [show (w.db.registeredClusters.get c.name).isSome = false from
            h.absent] at hany
          rw [appendConfig, hany] at hmutate
          exact nomatch hmutate
        · rw [hrun, Prog.andThen_ok]
          rw [appendConfig, any_name_iff] at hmutate
          cases hfree : registered w c.name with
          | true =>
              rw [if_pos (show (w.db.registeredClusters.get
                c.name).isSome = true from hfree)] at hmutate
              exact nomatch hmutate
          | false =>
              rw [if_neg (show ¬ (w.db.registeredClusters.get
                c.name).isSome = true from Bool.eq_false_iff.mp hfree)]
                at hmutate
              refine Or.inr ⟨t, rfl, ⟨hlocal, rfl, hfree⟩, ?_⟩
              intro name
              have hdict : configDict cfgs
                  = w.db.registeredClusters.put c := by
                rw [← Except.ok.inj hmutate, configDict, List.foldl_append,
                  Table.foldl_put_rows]
                rfl
              rw [hget, hdict, Table.get_put]

/-- A removal deletes a row, or finds none. -/
theorem run_removeCluster (name : String) (w : World) :
    (∃ e, (removeCluster name).run handle w = (.error e, w)) ∨
      ∃ t, (removeCluster name).run handle w
          = (.ok (), w.setDb (withConfigs w.db t)) ∧
        ∀ n, t.get n
          = if n = name then none else w.db.registeredClusters.get n := by
  rw [removeCluster]
  rcases run_updateConfigs (removeConfig name) w with
    ⟨e, -, hrun⟩ | ⟨cfgs, t, hmutate, hrun, hget⟩
  · exact Or.inl ⟨e, hrun⟩
  · refine Or.inr ⟨t, hrun, ?_⟩
    intro n
    rw [removeConfig] at hmutate
    split at hmutate
    · have hdict : configDict cfgs
          = w.db.registeredClusters.erase name := by
        rw [← Except.ok.inj hmutate]
        exact configDict_rows (w.db.registeredClusters.erase name)
      rw [hget, hdict, Table.get_erase]
    · exact nomatch hmutate

end CvCluster
