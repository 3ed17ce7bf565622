import XWrt.Foundation.UciCommands

/-!
# Sections that are made where they are missing

A job looks for a section. When it is not there, the job makes it and others, and
adds items to a list in a section that all jobs share; this one is made anew in
front of them. Jobs with different names do not see each other, so it is known
what a pass leaves under every name, and what a second pass changes.
-/

namespace XWrt.Foundation.Uci

open Keyed

/-- What is read of a section. -/
def Section.reads (s : Section) : SectionType × (String → Option Value) := (s.type, fun option => s.options.lookup option)

/-- Commands that set options leave what else was there. -/
theorem Section.reads_setAll_iff {entries : List (String × Text)} (type : SectionType) (options : Options) :
    (Section.setAll ⟨type, []⟩ entries).reads = (Section.setAll ⟨type, options⟩ entries).reads ↔
      ∀ option ∈ options.map Prod.fst, option ∈ entries.map Prod.fst := by
  constructor
  · intro same option member
    by_contra outside
    have read := congrFun (congrArg Prod.snd same) option
    simp only [reads, lookup_setAll_of_notMem outside] at read
    exact lookup_eq_none_iff.mp read.symm member
  · intro known
    rw [reads, reads, setAll_type, setAll_type]
    refine congrArg (Prod.mk type) (funext fun option => ?_)
    by_cases inside : option ∈ entries.map Prod.fst
    · exact lookup_setAll_of_mem inside _
    · have missing : options.lookup option = none := lookup_eq_none_iff.mpr fun member => inside (known option member)
      rw [lookup_setAll_of_notMem inside, lookup_setAll_of_notMem inside, missing]
      rfl

namespace Config

/-- The same sections, with the same types and the same values of their options. -/
def Same (first second : Config) : Prop := ∀ name, (first.lookup name).map Section.reads = (second.lookup name).map Section.reads

theorem Same.lookup_options {first second : Config} (same : Same first second) (name option : String) :
    (first.options name).lookup option = (second.options name).lookup option := by
  have read : ∀ config : Config, (config.options name).lookup option = ((config.lookup name).map Section.reads).bind fun reads => reads.2 option := by
    intro config
    rw [options]
    cases config.lookup name with
    | none => rfl
    | some s => rfl
  rw [read, read, same name]

/-- A section that is made: its name, its type and the commands for its options. -/
abbrev New := String × SectionType × (Section → Section)

def createAll (news : List New) (config : Config) : Config := news.foldl (fun config new => config.create new.1 new.2.1 new.2.2) config

variable {config : Config} {news : List New}

theorem options_congr {other : Config} {name : String} (same : config.lookup name = other.lookup name) : config.options name = other.options name := by
  rw [options, options, same]

theorem has_congr {other : Config} {name : String} (same : config.lookup name = other.lookup name) : config.has name = other.has name := by
  rw [has, has, same]

theorem lookup_createAll_of_notMem {name : String} (outside : name ∉ news.map Prod.fst) : (createAll news config).lookup name = config.lookup name := by
  induction news generalizing config with
  | nil => rfl
  | cons new rest ih =>
      rw [List.map_cons, List.mem_cons, not_or] at outside
      exact (ih outside.2).trans (lookup_create_of_ne outside.1 ..)

theorem lookup_createAll (distinct : (news.map Prod.fst).Nodup) {new : New} (member : new ∈ news) :
    (createAll news config).lookup new.1 = some (new.2.2 ⟨new.2.1, config.options new.1⟩) := by
  induction news generalizing config with
  | nil => cases member
  | cons first rest ih =>
      rw [List.map_cons, List.nodup_cons] at distinct
      rcases List.mem_cons.mp member with rfl | later
      · exact (lookup_createAll_of_notMem distinct.1).trans (lookup_create_self ..)
      · have apart : new.1 ≠ first.1 := fun same => distinct.1 (same ▸ List.mem_map_of_mem later)
        have made := @ih (config.create first.1 first.2.1 first.2.2) distinct.2 later
        rw [options_congr (lookup_create_of_ne apart ..)] at made
        exact made

theorem nodup_edit (distinct : (config.map Prod.fst).Nodup) (name : String) (change : Section → Section) :
    ((config.edit name change).map Prod.fst).Nodup := by
  rw [edit]
  split
  · exact nodup_put distinct
  · exact distinct

theorem nodup_create (distinct : (config.map Prod.fst).Nodup) (name : String) (type : SectionType) (change : Section → Section) :
    ((config.create name type change).map Prod.fst).Nodup := nodup_edit (nodup_put distinct) name change

theorem nodup_filter (distinct : (config.map Prod.fst).Nodup) (selects : String × Section → Bool) : ((config.filter selects).map Prod.fst).Nodup :=
  distinct.sublist (List.filter_sublist.map Prod.fst)

theorem nodup_createAll (distinct : (config.map Prod.fst).Nodup) : ((createAll news config).map Prod.fst).Nodup := by
  induction news generalizing config with
  | nil => exact distinct
  | cons new rest ih => exact ih (nodup_create distinct ..)

/-! ## Jobs -/

/-- A section that is looked for, and what is made when it is missing. -/
structure Job (shared : String) where
  guard : String
  news : List New
  items : List Text
  guarded : guard ∈ news.map Prod.fst
  distinct : (news.map Prod.fst).Nodup
  apart : shared ∉ news.map Prod.fst
  typed : ∀ new ∈ news, ∀ s, (new.2.2 s).type = s.type

namespace Job

variable {shared : String} (option : String) (job : Job shared)

def names : List String := job.news.map Prod.fst

def run (config : Config) : Config :=
  if config.has job.guard then config else (createAll job.news config).edit shared fun s => s.addAll option job.items

/-- What a job adds to the list. -/
def added (config : Config) : List Text := if config.has job.guard then [] else job.items

variable {option job}

theorem ne_shared {name : String} (member : name ∈ job.names) : name ≠ shared := fun same => job.apart (same ▸ member)

theorem run_of_has (found : config.has job.guard = true) : job.run option config = config := if_pos found

theorem lookup_run_of_notMem {name : String} (outside : name ∉ job.names) (other : name ≠ shared) :
    (job.run option config).lookup name = config.lookup name := by
  rw [run]
  split
  · rfl
  · rw [lookup_edit_of_ne other, lookup_createAll_of_notMem outside]

theorem lookup_run_new (missing : config.has job.guard = false) {new : New} (member : new ∈ job.news) :
    (job.run option config).lookup new.1 = some (new.2.2 ⟨new.2.1, config.options new.1⟩) := by
  rw [run, if_neg (ne_true_of_eq_false missing), lookup_edit_of_ne (ne_shared (List.mem_map_of_mem member)), lookup_createAll job.distinct member]

theorem lookup_run_shared : (job.run option config).lookup shared = (config.lookup shared).map fun s => s.addAll option (job.added config) := by
  rw [run, added]
  split
  · exact Option.map_id'.symm
  · rw [lookup_edit_self, lookup_createAll_of_notMem job.apart]

/-- A job sees only the sections that it makes. -/
theorem lookup_run_congr {other : Config} (same : ∀ name ∈ job.names, config.lookup name = other.lookup name) {name : String}
    (member : name ∈ job.names) : (job.run option config).lookup name = (job.run option other).lookup name := by
  have guard := has_congr (same job.guard job.guarded)
  cases found : config.has job.guard with
  | true => rw [run_of_has found, run_of_has (guard.symm.trans found), same name member]
  | false =>
      obtain ⟨new, inside, rfl⟩ := List.mem_map.mp member
      rw [lookup_run_new found inside, lookup_run_new (guard.symm.trans found) inside, options_congr (same new.1 member)]

theorem has_run : (job.run option config).has job.guard = true := by
  cases found : config.has job.guard with
  | true => rw [run_of_has found, found]
  | false =>
      obtain ⟨new, inside, same⟩ := List.mem_map.mp job.guarded
      rw [← same, has, lookup_run_new found inside]
      rfl

theorem nodup_run (distinct : (config.map Prod.fst).Nodup) : ((job.run option config).map Prod.fst).Nodup := by
  rw [run]
  split
  · exact distinct
  · exact nodup_edit (nodup_createAll distinct) ..

end Job

/-! ## One job after the other -/

section Jobs

variable {shared : String} (option : String) {jobs : List (Job shared)}

def runAll (jobs : List (Job shared)) (config : Config) : Config := jobs.foldl (fun config job => job.run option config) config

variable {option}

/-- The jobs make different sections. -/
def Apart (jobs : List (Job shared)) : Prop := jobs.Pairwise fun first later => first.names.Disjoint later.names

theorem lookup_runAll_of_notMem {name : String} (outside : ∀ job ∈ jobs, name ∉ job.names) (other : name ≠ shared) :
    (runAll option jobs config).lookup name = config.lookup name := by
  induction jobs generalizing config with
  | nil => rfl
  | cons job rest ih =>
      rw [List.forall_mem_cons] at outside
      exact (ih outside.2).trans (Job.lookup_run_of_notMem outside.1 other)

theorem runAll_of_has (all : ∀ job ∈ jobs, config.has job.guard = true) : runAll option jobs config = config := by
  induction jobs with
  | nil => rfl
  | cons job rest ih =>
      rw [List.forall_mem_cons] at all
      rw [runAll, List.foldl_cons, Job.run_of_has all.1, ← runAll, ih all.2]

/-- Every job does what it would do alone. -/
theorem lookup_runAll (apart : Apart jobs) {job : Job shared} (member : job ∈ jobs) {name : String} (inside : name ∈ job.names) :
    (runAll option jobs config).lookup name = (job.run option config).lookup name := by
  induction jobs generalizing config with
  | nil => cases member
  | cons first rest ih =>
      rw [Apart, List.pairwise_cons] at apart
      rcases List.mem_cons.mp member with rfl | later
      · exact lookup_runAll_of_notMem (fun other behind => apart.1 other behind inside) (Job.ne_shared inside)
      · have unseen : ∀ name ∈ job.names, (first.run option config).lookup name = config.lookup name := fun name inside =>
          Job.lookup_run_of_notMem (fun other => apart.1 job later other inside) (Job.ne_shared inside)
        exact (ih apart.2 later).trans (Job.lookup_run_congr unseen inside)

/-- The list has the items of the jobs whose section is missing. -/
theorem lookup_runAll_shared (apart : Apart jobs) :
    (runAll option jobs config).lookup shared = (config.lookup shared).map fun s => s.addAll option (jobs.flatMap fun job => job.added config) := by
  induction jobs generalizing config with
  | nil => exact Option.map_id'.symm
  | cons first rest ih =>
      rw [Apart, List.pairwise_cons] at apart
      have unseen : (rest.flatMap fun job => job.added (first.run option config)) = rest.flatMap fun job => job.added config := by
        refine List.flatMap_congr fun job later => ?_
        rw [Job.added, Job.added, has_congr (Job.lookup_run_of_notMem (fun other => apart.1 job later other job.guarded) (Job.ne_shared job.guarded))]
      rw [runAll, List.foldl_cons, ← runAll, ih apart.2, Job.lookup_run_shared, Option.map_map, unseen, List.flatMap_cons]
      refine congrArg (fun change => (config.lookup shared).map change) (funext fun s => ?_)
      exact List.foldl_append.symm

theorem nodup_runAll (distinct : (config.map Prod.fst).Nodup) : ((runAll option jobs config).map Prod.fst).Nodup := by
  induction jobs generalizing config with
  | nil => exact distinct
  | cons job rest ih => exact ih (Job.nodup_run distinct)

end Jobs

/-! ## A pass, and another one -/

section Pass

variable (shared option : String) (type : SectionType) (change : Section → Section) (jobs : List (Job shared))

/-- The shared section is made anew. -/
def restart (config : Config) : Config := (config.deleteSection shared).create shared type change

def pass (config : Config) : Config := runAll option jobs (restart shared type change config)

variable {shared option type change jobs}

theorem lookup_restart_of_ne {name : String} (other : name ≠ shared) : (restart shared type change config).lookup name = config.lookup name := by
  rw [restart, lookup_create_of_ne other]
  exact lookup_remove_of_ne _ other

theorem lookup_restart_self : (restart shared type change config).lookup shared = some (change ⟨type, []⟩) := by
  rw [restart, lookup_create_self, options, deleteSection, lookup_remove_self]
  rfl

theorem added_restart (job : Job shared) : job.added (restart shared type change config) = job.added config := by
  rw [Job.added, Job.added, has_congr (lookup_restart_of_ne (Job.ne_shared job.guarded))]

theorem lookup_pass_shared (apart : Apart jobs) : (pass shared option type change jobs config).lookup shared =
    some ((change ⟨type, []⟩).addAll option (jobs.flatMap fun job => job.added config)) := by
  rw [pass, lookup_runAll_shared apart, lookup_restart_self, Option.map_some]
  simp only [added_restart]

theorem lookup_pass_of_notMem {name : String} (outside : ∀ job ∈ jobs, name ∉ job.names) (other : name ≠ shared) :
    (pass shared option type change jobs config).lookup name = config.lookup name := by
  rw [pass, lookup_runAll_of_notMem outside other, lookup_restart_of_ne other]

theorem lookup_pass_of_mem (apart : Apart jobs) {job : Job shared} (member : job ∈ jobs) {name : String} (inside : name ∈ job.names) :
    (pass shared option type change jobs config).lookup name = (job.run option config).lookup name := by
  rw [pass, lookup_runAll apart member inside]
  exact Job.lookup_run_congr (fun name inside => lookup_restart_of_ne (Job.ne_shared inside)) inside

theorem has_pass (apart : Apart jobs) {job : Job shared} (member : job ∈ jobs) : (pass shared option type change jobs config).has job.guard = true := by
  rw [has_congr (lookup_pass_of_mem apart member job.guarded), Job.has_run]

theorem nodup_pass (distinct : (config.map Prod.fst).Nodup) : ((pass shared option type change jobs config).map Prod.fst).Nodup :=
  nodup_runAll (nodup_create (nodup_filter distinct _) ..)

/-- Where nothing is missing, only the shared section changes. -/
theorem same_pass_iff (all : ∀ job ∈ jobs, config.has job.guard = true) :
    Same (pass shared option type change jobs config) config ↔ (config.lookup shared).map Section.reads = some (change ⟨type, []⟩).reads := by
  have alone : pass shared option type change jobs config = restart shared type change config := by
    refine runAll_of_has fun job member => ?_
    rw [has_congr (lookup_restart_of_ne (Job.ne_shared job.guarded)), all job member]
  rw [alone]
  constructor
  · intro same
    rw [← same shared, lookup_restart_self, Option.map_some]
  · intro same name
    by_cases here : name = shared
    · rw [here, same, lookup_restart_self, Option.map_some]
    · rw [lookup_restart_of_ne here]

/-- A list that was not there is read as soon as it has an item. -/
theorem reads_addAll_iff {s : Section} (unset : s.options.lookup option = none) (items : List Text) :
    (s.addAll option items).reads = s.reads ↔ items = [] := by
  constructor
  · intro same
    by_contra some
    have here := congrFun (congrArg Prod.snd same) option
    rw [Section.addAll_missing unset some, Section.reads, Section.reads] at here
    simp only [lookup_concat_of_missing unset, unset] at here
    cases here
  · rintro rfl
    rfl

/-! Between the passes the sections of some types are deleted. -/

variable {drops : SectionType → Bool}

def keep (drops : SectionType → Bool) (config : Config) : Config := config.filter fun entry => !drops entry.2.type

/-- Nothing is deleted any more. -/
def Kept (drops : SectionType → Bool) (config : Config) : Prop := ∀ name s, config.lookup name = some s → drops s.type = false

theorem lookup_keep (distinct : (config.map Prod.fst).Nodup) (name : String) :
    (keep drops config).lookup name = (config.lookup name).filter fun s => !drops s.type := lookup_filter distinct (fun s => !drops s.type) name

theorem filter_kept {s : Section} (durable : drops s.type = false) : (some s).filter (fun s => !drops s.type) = some s := by
  rw [Option.filter_some, durable]
  rfl

theorem filter_deleted {s : Section} (volatile : drops s.type = true) : (some s).filter (fun s => !drops s.type) = none := by
  rw [Option.filter_some, volatile]
  rfl

/-- The types of a job are all deleted, or none is. -/
def Sorted (drops : SectionType → Bool) (job : Job shared) : Prop :=
  (∀ new ∈ job.news, drops new.2.1 = true) ∨ (∀ new ∈ job.news, drops new.2.1 = false) ∧ job.items = []

/-- What stood under the name of a section that is made cannot be told from what was read there. -/
def Forgets (config : Config) (new : New) : Prop := (new.2.2 ⟨new.2.1, []⟩).reads = (new.2.2 ⟨new.2.1, config.options new.1⟩).reads

section Between

variable {first middle : Config} (kept : Kept drops config)
  (deleted : ∀ name, middle.lookup name = (first.lookup name).filter fun s => !drops s.type)

section OneJob

variable {job : Job shared} (ran : ∀ name ∈ job.names, first.lookup name = (job.run option config).lookup name) (sorted : Sorted drops job)

include ran in
theorem has_between (same : ∀ name ∈ job.names, middle.lookup name = first.lookup name) : middle.has job.guard = true := by
  rw [has_congr (same _ job.guarded), has_congr (ran _ job.guarded), Job.has_run]

include kept deleted ran sorted

/-- The sections of a job stay where they were before it, or all of them are deleted. -/
theorem between : ((config.has job.guard = true ∨ (∀ new ∈ job.news, drops new.2.1 = false) ∧ job.items = []) ∧
      ∀ name ∈ job.names, middle.lookup name = first.lookup name) ∨
    config.has job.guard = false ∧ (∀ new ∈ job.news, drops new.2.1 = true) ∧ ∀ name ∈ job.names, middle.lookup name = none := by
  cases found : config.has job.guard with
  | true =>
      refine .inl ⟨.inl rfl, fun name member => ?_⟩
      rw [deleted, ran name member, Job.run_of_has found]
      cases here : config.lookup name with
      | none => rfl
      | some s => exact filter_kept (kept name s here)
  | false =>
      have made : ∀ new ∈ job.news, ∃ s, first.lookup new.1 = some s ∧ s.type = new.2.1 := fun new member =>
        ⟨_, (ran new.1 (List.mem_map_of_mem member)).trans (Job.lookup_run_new found member), job.typed new member _⟩
      rcases sorted with all | ⟨none, empty⟩
      · refine .inr ⟨rfl, all, fun name member => ?_⟩
        obtain ⟨new, inside, rfl⟩ := List.mem_map.mp member
        obtain ⟨s, here, type⟩ := made new inside
        rw [deleted, here, filter_deleted (type ▸ all new inside)]
      · refine .inl ⟨.inr ⟨none, empty⟩, fun name member => ?_⟩
        obtain ⟨new, inside, rfl⟩ := List.mem_map.mp member
        obtain ⟨s, here, type⟩ := made new inside
        rw [deleted, here, filter_kept (type ▸ none new inside)]

/-- The items are added again, and no others. -/
theorem added_between : job.added middle = job.added config := by
  rcases between kept deleted ran sorted with ⟨reason, same⟩ | ⟨missing, -, gone⟩
  · rw [Job.added, if_pos (has_between ran same), Job.added]
    split
    next => rfl
    next missing => exact (reason.resolve_left missing).2.symm
  · rw [Job.added, Job.added, has, gone _ job.guarded, missing]
    rfl

theorem same_between_iff : (∀ name ∈ job.names, ((job.run option middle).lookup name).map Section.reads = (first.lookup name).map Section.reads) ↔
    (config.has job.guard = false → ∀ new ∈ job.news, drops new.2.1 = true → Forgets config new) := by
  rcases between kept deleted ran sorted with ⟨reason, same⟩ | ⟨missing, all, gone⟩
  · rw [Job.run_of_has (has_between ran same)]
    refine iff_of_true (fun name member => by rw [same name member]) fun missing new member volatile => ?_
    have durable := (reason.resolve_left (ne_true_of_eq_false missing)).1 new member
    exact absurd (durable.symm.trans volatile) Bool.false_ne_true
  · have again : middle.has job.guard = false := by
      rw [has, gone _ job.guarded]
      rfl
    have made : ∀ new ∈ job.news, (((job.run option middle).lookup new.1).map Section.reads = (first.lookup new.1).map Section.reads ↔ Forgets config new) := by
      intro new member
      have empty : middle.options new.1 = [] := by
        rw [options, gone _ (List.mem_map_of_mem member)]
        rfl
      rw [Job.lookup_run_new again member, ran _ (List.mem_map_of_mem member), Job.lookup_run_new missing member, empty, Option.map_some,
        Option.map_some, Option.some_inj]
      rfl
    constructor
    · exact fun same _ new member _ => (made new member).mp (same new.1 (List.mem_map_of_mem member))
    · intro forgets name member
      obtain ⟨new, inside, rfl⟩ := List.mem_map.mp member
      exact (made new inside).mpr (forgets missing new inside (all new inside))

end OneJob

end Between

/-- A second pass makes the sections of the deleted types again, without what else was under their names. -/
theorem same_pass_keep_iff (apart : Apart jobs) (distinct : (config.map Prod.fst).Nodup) (kept : Kept drops config)
    (sorted : ∀ job ∈ jobs, Sorted drops job) :
    Same (pass shared option type change jobs (keep drops (pass shared option type change jobs config))) (pass shared option type change jobs config) ↔
      ∀ job ∈ jobs, config.has job.guard = false → ∀ new ∈ job.news, drops new.2.1 = true → Forgets config new := by
  have deleted := fun name => @lookup_keep (pass shared option type change jobs config) drops (nodup_pass distinct) name
  have ran := fun job member name inside => @lookup_pass_of_mem config shared option type change jobs apart job member name inside
  have each := fun job member => same_between_iff kept deleted (ran job member) (sorted job member)
  constructor
  · intro same job member
    refine (each job member).mp fun name inside => ?_
    rw [← same name, lookup_pass_of_mem apart member inside]
  · intro forgets name
    by_cases here : name = shared
    · rw [here, lookup_pass_shared apart, lookup_pass_shared apart]
      have items : (jobs.flatMap fun job => job.added (keep drops (pass shared option type change jobs config))) = jobs.flatMap fun job => job.added config :=
        List.flatMap_congr fun job member => added_between kept deleted (ran job member) (sorted job member)
      rw [items]
    · by_cases made : ∃ job ∈ jobs, name ∈ job.names
      · obtain ⟨job, member, inside⟩ := made
        rw [lookup_pass_of_mem apart member inside]
        exact (each job member).mpr (forgets job member) name inside
      · have outside : ∀ job ∈ jobs, name ∉ job.names := fun job member inside => made ⟨job, member, inside⟩
        rw [lookup_pass_of_notMem outside here, deleted, lookup_pass_of_notMem outside here]
        cases found : config.lookup name with
        | none => rfl
        | some s => rw [filter_kept (kept name s found)]

end Pass

end Config

end XWrt.Foundation.Uci
