import Mathlib.Data.List.Infix
import ClusterVision.CsvExport

/-! # The path filter of the audit log

    `path_contains` becomes a pattern of `LIKE`, and nothing in it is escaped.
    A text without wildcards is searched for as it is written.  Every other
    text, read as a pattern, matches some path that does not contain it, so
    the list and the export are what their filters say exactly for the texts
    without wildcards. -/

namespace CvExport

open CvProg CvTable CvIso CvKube CvBackend CvRbac CvHttp CvAudit

/-! ## Patterns -/

/-- A text without wildcards, and without the character that escapes one. -/
def Plain (text : List Char) : Prop :=
  ∀ c ∈ text, c ≠ '%' ∧ c ≠ '_' ∧ c ≠ '\\'

theorem like_percent (pattern text : List Char) :
    like ('%' :: pattern) text = text.tails.any (like pattern) := by
  rw [like]

/-- A pattern that ends in a percent sign matches every text. -/
theorem like_all (text : List Char) : like ['%'] text = true := by
  rw [like_percent, List.any_eq_true]
  exact ⟨[], (List.mem_tails [] text).mpr List.nil_suffix, rfl⟩

/-- A character that is no wildcard stands for itself. -/
theorem like_cons {c : Char} (hp : c ≠ '%') (hu : c ≠ '_') (he : c ≠ '\\')
    (d : Char) (pattern text : List Char) :
    like (c :: pattern) (d :: text)
      = (decide (d = c) && like pattern text) := by
  rw [like]
  · rw [decide_eq_false hu, Bool.false_or]
  · exact hp
  · intro c' pattern' hc
    exact absurd hc he

theorem like_cons_nil {c : Char} (hp : c ≠ '%') (he : c ≠ '\\')
    (pattern : List Char) : like (c :: pattern) [] = false := by
  rw [like]
  · exact hp
  · intro c' pattern' hc
    exact absurd hc he

/-- Such a text matches where it stands. -/
theorem like_prefix {x : List Char} (h : Plain x) (text : List Char) :
    like (x ++ ['%']) text = true ↔ x <+: text := by
  induction x generalizing text with
  | nil =>
      rw [List.nil_append, like_all]
      exact ⟨fun _ => List.nil_prefix, fun _ => rfl⟩
  | cons c x ih =>
      obtain ⟨⟨hp, hu, he⟩, hx⟩ := List.forall_mem_cons.mp h
      cases text with
      | nil =>
          rw [List.cons_append, like_cons_nil hp he, List.prefix_nil]
          exact ⟨nofun, nofun⟩
      | cons d text =>
          rw [List.cons_append, like_cons hp hu he, Bool.and_eq_true,
            decide_eq_true_iff, ih hx, List.cons_prefix_cons, eq_comm]

/-- `contains` of a text without wildcards is substring search. -/
theorem contains_plain {path text : String} (h : Plain text.toList) :
    contains path text = true ↔ text.toList <:+: path.toList := by
  rw [contains, List.cons_append, like_percent, List.any_eq_true,
    List.infix_iff_prefix_suffix]
  refine exists_congr (fun tail => ?_)
  rw [List.mem_tails, like_prefix h, and_comm]

/-! ## A path that a pattern matches -/

/-- A text that a filter matches: a percent sign stands for nothing, an
    underscore for a letter, and an escaped character for itself.  At the end,
    the backslash escapes the percent sign that follows the filter. -/
def sample : List Char → List Char
  | [] => []
  | '%' :: x => sample x
  | ['\\'] => ['%']
  | '\\' :: c :: x => c :: sample x
  | c :: x => (if c = '_' then 'a' else c) :: sample x

/-- A backslash is the last character, or it has one after it. -/
theorem not_escape {c : Char} {x : List Char} (hb : c = '\\' → x ≠ [])
    (he : ∀ c' x', c = '\\' → x ≠ c' :: x') : c ≠ '\\' := by
  intro hc
  cases x with
  | nil => exact hb hc rfl
  | cons c' x => exact he c' x hc rfl

theorem like_sample (x : List Char) : like (x ++ ['%']) (sample x) = true := by
  induction x using sample.induct with
  | case1 => exact like_all []
  | case2 x ih =>
      rw [sample, List.cons_append, like_percent, List.any_eq_true]
      exact ⟨sample x, (List.mem_tails _ _).mpr (List.suffix_refl _), ih⟩
  | case3 => decide
  | case4 c x ih =>
      rw [sample, List.cons_append, List.cons_append, like, ih,
        decide_eq_true rfl]
      rfl
  | case5 c x hp hb he ih =>
      have hc := not_escape hb he
      rw [sample, List.cons_append, like, ih, Bool.and_true]
      · by_cases hu : c = '_'
        · rw [decide_eq_true hu]
          rfl
        · rw [if_neg hu, decide_eq_true rfl, Bool.or_true]
      · exact hp
      · intro c' x' hsame
        exact absurd hsame hc
      · exact hp
      · exact hb
      · exact he

/-- It is no longer than the filter, and it is the filter only where this has
    no wildcards. -/
theorem sample_spec (x : List Char) :
    (sample x).length ≤ x.length ∧ (sample x = x → Plain x) := by
  induction x using sample.induct with
  | case1 => exact ⟨Nat.le_refl 0, fun _ c hc => nomatch hc⟩
  | case2 x ih =>
      rw [sample]
      refine ⟨Nat.le_succ_of_le ih.1, fun h => ?_⟩
      have hlength := congrArg List.length h
      rw [List.length_cons] at hlength
      omega
  | case3 => exact ⟨Nat.le_refl 1, fun h => nomatch h⟩
  | case4 c x ih =>
      rw [sample, List.length_cons, List.length_cons, List.length_cons]
      refine ⟨by omega, fun h => ?_⟩
      have hlength := congrArg List.length h
      simp only [List.length_cons] at hlength
      omega
  | case5 c x hp hb he ih =>
      have hc := not_escape hb he
      rw [sample, List.length_cons, List.length_cons]
      · refine ⟨Nat.succ_le_succ ih.1, fun h => ?_⟩
        obtain ⟨hhead, htail⟩ := List.cons.inj h
        refine List.forall_mem_cons.mpr ⟨⟨hp, ?_, hc⟩, ih.2 htail⟩
        rintro rfl
        exact absurd hhead (by decide)
      · exact hp
      · exact hb
      · exact he

/-- Every filter, as a pattern, matches a path that contains it only if it has
    no wildcards. -/
theorem sample_contains (x : List Char) (h : x <:+: sample x) : Plain x := by
  obtain ⟨hle, hplain⟩ := sample_spec x
  exact hplain (h.eq_of_length (Nat.le_antisymm h.length_le hle)).symm

theorem contains_sample (text : String) :
    contains (String.ofList (sample text.toList)) text = true := by
  rw [contains, List.cons_append, like_percent, List.any_eq_true,
    String.toList_ofList]
  exact ⟨_, (List.mem_tails _ _).mpr (List.suffix_refl _), like_sample _⟩

/-! ## The list and the export -/

/-- Is an entry what the filters ask for: does its path contain the text, and
    is its actor the one given? -/
def wanted (f : Filters) (e : AuditLogEntry) : Bool :=
  f.pathContains.all (fun text => decide (text.toList <:+: e.path.toList))
    && f.actor.all (fun actor => decide (e.actor = some actor))

/-- The dicts of the wanted entries. -/
def wantedDicts (f : Filters) (log : List AuditLogEntry) : List EntryDict :=
  (log.filter (wanted f)).map AuditLogEntry.toDict

/-- A page with room for the whole log, the total, and the export without
    dates are what the filters ask for. -/
structure Exact (f : Filters) (newest : NewestFirst)
    (oldest : OldestFirst AuditLogEntry.timestamp) (limit : Nat)
    (log : List AuditLogEntry) : Prop where
  listed : (AuditService.listEntries newest limit 0 f log).1.Perm
    (wantedDicts f log)
  total : (AuditService.listEntries newest limit 0 f log).2
    = (log.filter (wanted f)).length
  exported : (AuditService.exportEntries oldest none none f log).Perm
    (wantedDicts f log)

/-- The filters that mean what they say: the text has no wildcards, and an
    actor that is given has a name. -/
def Literal (f : Filters) : Prop :=
  (∀ text, f.pathContains = some text → Plain text.toList) ∧ f.actor ≠ some ""

/-- Such filters admit the entries that they ask for. -/
theorem admits_eq_wanted {f : Filters} (h : Literal f) (e : AuditLogEntry) :
    f.admits e = wanted f e := by
  have hactor : (!truthy f.actor || decide (e.actor = f.actor))
      = f.actor.all (fun actor => decide (e.actor = some actor)) := by
    cases hf : f.actor with
    | none => rfl
    | some actor =>
        have hne : actor ≠ "" := by
          rintro rfl
          exact h.2 hf
        rw [truthy, decide_eq_true hne, Option.all_some]
        rfl
  have hpath : (!truthy f.pathContains
      || contains e.path (f.pathContains.getD ""))
      = f.pathContains.all (fun text =>
          decide (text.toList <:+: e.path.toList)) := by
    cases hf : f.pathContains with
    | none => rfl
    | some text =>
        have hcontains : contains e.path text
            = decide (text.toList <:+: e.path.toList) := by
          rw [Bool.eq_iff_iff, decide_eq_true_iff]
          exact contains_plain (h.1 text hf)
        rw [Option.all_some, Option.getD_some, hcontains]
        by_cases hne : text = ""
        · subst hne
          exact (decide_eq_true List.nil_infix).symm
        · rw [truthy, decide_eq_true hne]
          rfl
  rw [Filters.admits, wanted, hactor, hpath, Bool.and_comm]

/-- What the list shows is what the filters admit. -/
theorem listEntries_perm (newest : NewestFirst) {limit : Nat} (f : Filters)
    {log : List AuditLogEntry} (h : log.length ≤ limit) :
    (AuditService.listEntries newest limit 0 f log).1.Perm
      ((log.filter f.admits).map AuditLogEntry.toDict) := by
  have hsort := newest.perm (log.filter f.admits)
  have hlength : (newest.sort (log.filter f.admits)).length ≤ limit := by
    rw [hsort.length_eq]
    exact Nat.le_trans (List.length_filter_le _ _) h
  rw [AuditService.listEntries, List.drop_zero,
    List.take_of_length_le hlength]
  exact hsort.map _

/-- So is what the export without dates writes. -/
theorem exportEntries_perm (oldest : OldestFirst AuditLogEntry.timestamp)
    (f : Filters) (log : List AuditLogEntry) :
    (AuditService.exportEntries oldest none none f log).Perm
      ((log.filter f.admits).map AuditLogEntry.toDict) :=
  (oldest.perm (log.filter f.admits)).map _

/-- An entry with a path that the filters admit. -/
def admittedEntry (f : Filters) (actor : Option String) : AuditLogEntry :=
  ⟨"0", Time.epoch, actor, none, "POST",
    String.ofList (sample (f.pathContains.getD "").toList), 201, .null⟩

theorem admits_admittedEntry {f : Filters} {actor : Option String}
    (h : truthy f.actor = true → actor = f.actor) :
    f.admits (admittedEntry f actor) = true := by
  refine Bool.and_eq_true_iff.mpr ⟨?_, ?_⟩
  · cases ht : truthy f.actor with
    | false => rfl
    | true => exact decide_eq_true (h ht)
  · rw [Bool.or_eq_true]
    exact Or.inr (contains_sample _)

/-- **THE PATH FILTER**: the list and the export are, for every log, what the
    filters ask for exactly when these mean what they say. -/
theorem filters_exact_iff (f : Filters) :
    (∀ newest oldest limit log, log.length ≤ limit →
      Exact f newest oldest limit log) ↔ Literal f := by
  constructor
  · intro h
    -- an admitted entry, alone in the log, is a wanted one
    have hwanted : ∀ actor, (truthy f.actor = true → actor = f.actor) →
        wanted f (admittedEntry f actor) = true := by
      intro actor hactor
      have htotal := (h NewestFirst.stable (OldestFirst.stable _) 1
        [admittedEntry f actor] (Nat.le_refl 1)).total
      rw [AuditService.listEntries, List.filter_cons_of_pos
        (admits_admittedEntry hactor)] at htotal
      by_contra hnot
      rw [List.filter_cons_of_neg hnot] at htotal
      exact nomatch htotal
    refine ⟨?_, ?_⟩
    · intro text htext
      have hpath := (Bool.and_eq_true_iff.mp (hwanted f.actor
        (fun _ => rfl))).1
      rw [htext, Option.all_some, decide_eq_true_iff] at hpath
      refine sample_contains text.toList ?_
      rw [admittedEntry, htext, Option.getD_some, String.toList_ofList] at hpath
      exact hpath
    · intro hempty
      have hfalsy : truthy f.actor = false := by
        rw [hempty]
        rfl
      have hactor := (Bool.and_eq_true_iff.mp (hwanted none
        (fun ht => nomatch hfalsy.symm.trans ht))).2
      rw [hempty] at hactor
      exact nomatch hactor
  · intro h newest oldest limit log hlimit
    have hfilter : log.filter f.admits = log.filter (wanted f) :=
      List.filter_congr (fun e _ => admits_eq_wanted h e)
    refine ⟨?_, ?_, ?_⟩
    · rw [wantedDicts, ← hfilter]
      exact listEntries_perm newest f hlimit
    · rw [← hfilter]
      rfl
    · rw [wantedDicts, ← hfilter]
      exact exportEntries_perm oldest f log

/-- The underscore of `service_account` also finds a path with a hyphen. -/
theorem underscore_finds_hyphen :
    ¬ Exact ⟨none, some "service_account"⟩ NewestFirst.stable
      (OldestFirst.stable _) 1
      [⟨"0", Time.epoch, none, none, "DELETE", "/api/v1/users/service-account",
        204, .null⟩] := by
  intro h
  exact absurd h.total (by decide)

end CvExport
