import XWrt.CloudflareTunnel.Ownership
import XWrt.CloudflareTunnel.Retry

/-!
# Cleaning up old records

The loop of `M.deploy` over `state.dns`. An entry whose id names a record that
is gone is not forgotten: the request for the record is an error, which is taken
for a failure of the clean-up and reported in every later deployment. Any other
entry of an earlier hostname is forgotten when every call is served.
-/

namespace XWrt.CloudflareTunnel

open Foundation

variable {ctx : Ctx} {cloud : Cloud} {remote remote' : Remote} {w w' w₀ : World} {key oldKey : String} {old : SavedDns}

/-- The table of `state.dns`. -/
abbrev DnsTable := AList fun _ : String => SavedDns

/-- The entry names a record that is not there. -/
def Gone (remote : Remote) (entry : SavedDns) : Prop :=
  ∃ recordId, entry.id = some recordId ∧ remote.record? entry.zoneId recordId = none

/-- The entries of records that are not the one of the key. -/
def DnsTable.Other (dns : DnsTable) (key other : String) (entry : SavedDns) : Prop :=
  other ≠ key ∧ dns.lookup other = some entry ∧ entry.owned = true

/-! ## Ids that are given out once -/

/-- The ids of the records are not given out again, and tell hostnames apart. -/
structure Distinct (cloud : Cloud) (remote : Remote) : Prop where
  given : ∀ record ∈ remote.records, ∀ n, remote.created ≤ n → cloud.recordId n ≠ record.id
  name : ∀ record ∈ remote.records, ∀ other ∈ remote.records,
    record.zoneId = other.zoneId → record.id = other.id → record.name = other.name

/-- An entry is kept under the key of its hostname, and its id only names records of that hostname. -/
structure Kept (cloud : Cloud) (remote : Remote) (dns : DnsTable) : Prop where
  keys : ∀ {key entry}, dns.lookup key = some entry → key = dnsKey entry.zoneId entry.hostname ∧ isId entry.zoneId = true
  given : ∀ {key entry recordId}, dns.lookup key = some entry → entry.id = some recordId →
    ∀ n, remote.created ≤ n → cloud.recordId n ≠ recordId
  name : ∀ {key entry recordId}, dns.lookup key = some entry → entry.id = some recordId →
    ∀ record ∈ remote.records, record.zoneId = entry.zoneId → record.id = recordId → record.name = entry.hostname

/-- Every record has one of its ids and name among the others. -/
def Covered (records' records : List DnsRecord) : Prop :=
  ∀ record' ∈ records', ∃ record ∈ records,
    record'.zoneId = record.zoneId ∧ record'.id = record.id ∧ record'.name = record.name

/-- Every record was there before, whatever else was done to it. -/
structure Fewer (remote remote' : Remote) : Prop where
  records : Covered remote'.records remote.records
  created : remote.created ≤ remote'.created

theorem Covered.of_subset {records records' : List DnsRecord} (subset : records' ⊆ records) : Covered records' records :=
  fun record inside => ⟨record, subset inside, rfl, rfl, rfl⟩

theorem Fewer.of_subset (records : remote'.records ⊆ remote.records) (created : remote.created ≤ remote'.created) :
    Fewer remote remote' where
  records := .of_subset records
  created := created

theorem Fewer.dropRecord (remote : Remote) (zoneId recordId : String) : Fewer remote (remote.dropRecord zoneId recordId) :=
  .of_subset List.eraseP_subset le_rfl

theorem Fewer.setProxied (remote : Remote) (zoneId recordId : String) (proxied : Bool) :
    Fewer remote (remote.setProxied zoneId recordId proxied) where
  records := by
    intro record' inside
    obtain ⟨record, member, rfl⟩ := List.mem_map.mp inside
    refine ⟨record, member, ?_⟩
    split_ifs <;> exact ⟨rfl, rfl, rfl⟩
  created := le_rfl

/-- The change of a record leaves one with its ids and name. -/
theorem Covered.setProxied (remote : Remote) (zoneId recordId : String) (proxied : Bool) :
    Covered remote.records (remote.setProxied zoneId recordId proxied).records := by
  intro record inside
  refine ⟨_, List.mem_map_of_mem inside, ?_⟩
  split_ifs <;> exact ⟨rfl, rfl, rfl⟩

theorem Distinct.fewer (distinct : Distinct cloud remote) (fewer : Fewer remote remote') : Distinct cloud remote' where
  given := by
    intro record' inside n later
    obtain ⟨record, member, -, id, -⟩ := fewer.records record' inside
    rw [id]
    exact distinct.given record member n (Nat.le_trans fewer.created later)
  name := by
    intro first' inside second' inside' zone same
    obtain ⟨first, member, firstZone, firstId, firstName⟩ := fewer.records first' inside
    obtain ⟨second, member', secondZone, secondId, secondName⟩ := fewer.records second' inside'
    rw [firstZone, secondZone] at zone
    rw [firstId, secondId] at same
    rw [firstName, secondName]
    exact distinct.name first member second member' zone same

theorem Kept.fewer {dns : DnsTable} (kept : Kept cloud remote dns) (fewer : Fewer remote remote') : Kept cloud remote' dns where
  keys := kept.keys
  given := fun entry known n later => kept.given entry known n (Nat.le_trans fewer.created later)
  name := by
    intro key entry recordId saved known record' inside zone id
    obtain ⟨record, member, sameZone, sameId, sameName⟩ := fewer.records record' inside
    rw [sameName]
    exact kept.name saved known record member (sameZone.symm.trans zone) (sameId.symm.trans id)

section Created

variable {record : DnsRecord} (new : record.id = cloud.recordId remote.created)
include new

theorem Distinct.create (distinct : Distinct cloud remote) (ids : Function.Injective cloud.recordId) : Distinct cloud (remote.addRecord record) where
  given := by
    intro other inside n later
    rcases List.mem_cons.mp inside with rfl | earlier
    · rw [new]
      exact fun same => absurd (ids same) (Nat.ne_of_gt later)
    · exact distinct.given other earlier n (Nat.le_of_succ_le later)
  name := by
    have apart : ∀ other ∈ remote.records, record.id ≠ other.id := fun other inside =>
      new ▸ distinct.given other inside remote.created le_rfl
    intro first inside second inside' zone same
    rcases List.mem_cons.mp inside with rfl | earlier <;> rcases List.mem_cons.mp inside' with rfl | earlier'
    · rfl
    · exact absurd same (apart second earlier')
    · exact absurd same.symm (apart first earlier)
    · exact distinct.name first earlier second earlier' zone same

theorem Kept.create {dns : DnsTable} (kept : Kept cloud remote dns) : Kept cloud (remote.addRecord record) dns where
  keys := kept.keys
  given := fun entry known n later => kept.given entry known n (Nat.le_of_succ_le later)
  name := by
    intro key entry recordId saved known other inside zone id
    rcases List.mem_cons.mp inside with rfl | earlier
    · exact absurd (new.symm.trans id) (kept.given saved known remote.created le_rfl)
    · exact kept.name saved known other earlier zone id

end Created

section Entered

variable {dns : DnsTable} (kept : Kept cloud remote dns)
include kept

theorem Kept.insert {saved : SavedDns} (place : key = dnsKey saved.zoneId saved.hostname) (zone : isId saved.zoneId = true)
    (named : ∀ recordId, saved.id = some recordId → ∃ record ∈ remote.records,
      record.zoneId = saved.zoneId ∧ record.id = recordId ∧ record.name = saved.hostname)
    (distinct : Distinct cloud remote) : Kept cloud remote (dns.insert key saved) := by
  have cases {other : String} {entry : SavedDns} (found : (dns.insert key saved).lookup other = some entry) :
      other = key ∧ entry = saved ∨ dns.lookup other = some entry := by
    by_cases here : other = key
    · subst here
      rw [AList.lookup_insert] at found
      exact .inl ⟨rfl, (Option.some.inj found).symm⟩
    · rw [AList.lookup_insert_ne here] at found
      exact .inr found
  constructor
  · intro other entry found
    rcases cases found with ⟨rfl, rfl⟩ | earlier
    · exact ⟨place, zone⟩
    · exact kept.keys earlier
  · intro other entry recordId found known
    rcases cases found with ⟨rfl, rfl⟩ | earlier
    · obtain ⟨record, inside, -, rfl, -⟩ := named recordId known
      exact distinct.given record inside
    · exact kept.given earlier known
  · intro other entry recordId found known
    rcases cases found with ⟨rfl, rfl⟩ | earlier
    · obtain ⟨record, inside, sameZone, rfl, name⟩ := named recordId known
      intro record' inside' zone' id'
      rw [← name]
      exact distinct.name record' inside' record inside (zone'.trans sameZone.symm) id'
    · exact kept.name earlier known

theorem Kept.erase (oldKey : String) : Kept cloud remote (dns.erase oldKey) := by
  have earlier {other : String} {entry : SavedDns} (found : (dns.erase oldKey).lookup other = some entry) :
      dns.lookup other = some entry := by
    by_cases here : other = oldKey
    · rw [here, AList.lookup_erase] at found
      cases found
    · rwa [AList.lookup_erase_ne here] at found
  exact ⟨fun found => kept.keys (earlier found), fun found => kept.given (earlier found), fun found => kept.name (earlier found)⟩

end Entered

/-! ## One turn of the loop -/

/-- What asking for the record of an old entry, and deleting it, may have done. -/
structure Deleted (old : SavedDns) (w w' : World) : Prop where
  disk : w'.disk = w.disk
  mem : w'.mem = w.mem
  calm : w.Calm → w'.Calm
  remote : w'.remote = w.remote ∨ ∃ recordId existing, w.remote.record? old.zoneId recordId = some existing ∧
    existing.name = old.hostname ∧ w'.remote = w.remote.dropRecord old.zoneId recordId

theorem deleteOld_spec (recordId : String) :
    wp (api ctx (.getRecord old.zoneId recordId) >>= fun existing =>
        if existing.name = old.hostname ∧ existing.type = "CNAME" ∧ existing.content = target old.tunnelId then
          api ctx (.deleteRecord old.zoneId recordId)
        else pure ())
      (fun _ w' => Deleted old w w' ∧ w.remote.record? old.zoneId recordId ≠ none)
      (fun _ w' => Deleted old w w' ∧ (w.Calm → w.remote.record? old.zoneId recordId = none)) w := by
  apply wp_bind.mpr
  apply wp_api_get rfl
  case broken =>
      intro failure _ missing
      exact ⟨⟨rfl, rfl, World.Calm.next, .inl rfl⟩, missing⟩
  intro existing there
  have found : w.remote.record? old.zoneId recordId = some existing := there
  have present : w.remote.record? old.zoneId recordId ≠ none := by simp [found]
  split_ifs with matched
  · apply wp_api
    · exact fun answer _ => ⟨⟨rfl, rfl, fun calm => calm.next.next, .inr ⟨recordId, existing, found, matched.1, rfl⟩⟩, present⟩
    · intro failure remote _ reached missing
      refine ⟨⟨rfl, rfl, fun calm => calm.next.next, ?_⟩, fun calm => ?_⟩
      · rcases reached with rfl | rfl
        · exact .inl rfl
        · exact .inr ⟨recordId, existing, found, matched.1, rfl⟩
      · have gone := missing calm.next
        simp only [serve, Option.map_eq_none_iff] at gone
        exact gone
  · exact ⟨⟨rfl, rfl, World.Calm.next, .inl rfl⟩, present⟩

/-- What the clean-up of one entry may have done before it ended: an entry without an id may
have been given the one of a record of its hostname. -/
structure Touched (oldKey : String) (old : SavedDns) (w w' : World) : Prop where
  disk : w'.disk = w.disk
  calm : w.Calm → w'.Calm
  mem : w'.mem = w.mem ∨ ∃ only ∈ w.remote.recordsNamed old.zoneId old.hostname,
    w'.mem = (w.enter oldKey { old with id := some only.id }).mem
  remote : w'.remote = w.remote ∨ ∃ recordId existing, w.remote.record? old.zoneId recordId = some existing ∧
    existing.name = old.hostname ∧ w'.remote = w.remote.dropRecord old.zoneId recordId

theorem record?_ne_none {only : DnsRecord} {zoneId hostname : String} (listed : only ∈ remote.recordsNamed zoneId hostname) :
    remote.record? zoneId only.id ≠ none := by
  simp only [Remote.recordsNamed, List.mem_filter, decide_eq_true_eq] at listed
  rw [Remote.record?, ← Option.isSome_iff_ne_none, List.find?_isSome]
  exact ⟨only, listed.1, by simp [listed.2.1]⟩

theorem removeOld_spec :
    wp (removeOld ctx oldKey old) (fun _ w' => Touched oldKey old w w' ∧ ¬Gone w.remote old)
      (fun _ w' => Touched oldKey old w w' ∧ (w.Calm → Gone w.remote old)) w := by
  unfold removeOld oldRecordId
  cases known : old.id with
  | some recordId =>
      have same {w' : World} (deleted : Deleted old w w') : Touched oldKey old w w' :=
        ⟨deleted.disk, deleted.calm, .inl deleted.mem, deleted.remote⟩
      have gone_iff : Gone w.remote old ↔ w.remote.record? old.zoneId recordId = none := by
        simp [Gone, known]
      rw [gone_iff]
      apply wp_mono (deleteOld_spec recordId)
      · exact fun _ _ done => ⟨same done.1, done.2⟩
      · exact fun _ _ fails => ⟨same fails.1, fails.2⟩
  | none =>
      have kept : ¬Gone w.remote old := by simp [Gone, known]
      apply wp_bind.mpr
      apply wp_bind.mpr
      apply wp_api_get rfl
      case broken =>
          intro failure _ missing
          exact ⟨⟨rfl, World.Calm.next, .inl rfl, .inl rfl⟩, fun calm => nomatch missing calm⟩
      intro listed served
      have found : (w.remote.recordsNamed old.zoneId old.hostname).take 100 = listed := Option.some.inj served
      match listed, found with
      | [], _ => exact ⟨⟨rfl, World.Calm.next, .inl rfl, .inl rfl⟩, kept⟩
      | _ :: _ :: _, _ => exact ⟨⟨rfl, World.Calm.next, .inl rfl, .inl rfl⟩, kept⟩
      | [only], found =>
          have inside : only ∈ w.remote.recordsNamed old.zoneId old.hostname :=
            List.mem_of_mem_take (found ▸ List.mem_singleton_self only)
          have same {w' : World}
              (deleted : Deleted old ((w.next.record (.getRecords old.zoneId old.hostname) (some [only]) w.remote).enter oldKey
                { old with id := some only.id }) w') : Touched oldKey old w w' :=
            ⟨deleted.disk, fun calm => deleted.calm calm.next, .inr ⟨only, inside, deleted.mem⟩, deleted.remote⟩
          apply wp_bind.mpr
          apply wp_assign.mpr
          apply wp_mono (deleteOld_spec only.id)
          · exact fun _ _ done => ⟨same done.1, kept⟩
          · exact fun _ _ fails => ⟨same fails.1, fun calm => absurd (fails.2 calm.next) (record?_ne_none inside)⟩

/-- The table with the entry as it was, or with the id of a record of its hostname. -/
def Identified (remote : Remote) (dns : DnsTable) (key oldKey : String) (dns' : DnsTable) : Prop :=
  dns' = dns ∨ ∃ old, DnsTable.Other dns key oldKey old ∧ ∃ only ∈ remote.recordsNamed old.zoneId old.hostname,
    dns' = dns.insert oldKey { old with id := some only.id }

/-- The account as it was, or without a record of the entry's hostname. -/
def Thinned (remote : Remote) (dns : DnsTable) (key oldKey : String) (remote' : Remote) : Prop :=
  remote' = remote ∨ ∃ old recordId existing, DnsTable.Other dns key oldKey old ∧
    remote.record? old.zoneId recordId = some existing ∧ existing.name = old.hostname ∧
      remote' = remote.dropRecord old.zoneId recordId

/-- What one turn of the loop does. -/
structure Swept (key oldKey : String) (warnings : List String) (w : World) (warnings' : List String) (w' : World) : Prop where
  disk : w'.disk = w.disk
  calm : w.Calm → w'.Calm
  entries : ∃ dns, Identified w.remote w.mem.dns key oldKey dns ∧ (w'.mem.dns = dns ∨ w'.mem.dns = dns.erase oldKey)
  remote : Thinned w.remote w.mem.dns key oldKey w'.remote
  grown : warnings' = warnings ∨ warnings' ≠ [] ∧ ∃ old, DnsTable.Other w.mem.dns key oldKey old
  gone : w.Calm → ∀ old, DnsTable.Other w.mem.dns key oldKey old → Gone w.remote old → warnings' ≠ []
  cleared : w.Calm → ∀ old, DnsTable.Other w.mem.dns key oldKey old → ¬Gone w.remote old →
    warnings' = warnings ∧ w'.mem.dns.lookup oldKey = none

/-- An entry that the loop passes over. -/
theorem Swept.skip (warnings : List String) (own : ∀ old, ¬DnsTable.Other w.mem.dns key oldKey old) :
    Swept key oldKey warnings w warnings w where
  disk := rfl
  calm := id
  entries := ⟨_, .inl rfl, .inl rfl⟩
  remote := .inl rfl
  grown := .inl rfl
  gone := fun _ old other => absurd other (own old)
  cleared := fun _ old other => absurd other (own old)

theorem Touched.identified (touched : Touched oldKey old w w') (other : DnsTable.Other w.mem.dns key oldKey old) :
    Identified w.remote w.mem.dns key oldKey w'.mem.dns := by
  rcases touched.mem with same | ⟨only, inside, same⟩
  · exact .inl (by rw [same])
  · exact .inr ⟨old, other, only, inside, by rw [same]; rfl⟩

theorem Touched.thinned (touched : Touched oldKey old w w') (other : DnsTable.Other w.mem.dns key oldKey old) :
    Thinned w.remote w.mem.dns key oldKey w'.remote := by
  rcases touched.remote with same | ⟨recordId, existing, found, name, dropped⟩
  · exact .inl same
  · exact .inr ⟨old, recordId, existing, other, found, name, dropped⟩

theorem cleanUpKey_spec (warnings : List String) :
    wp (cleanUpKey ctx key warnings oldKey) (fun warnings' w' => Swept key oldKey warnings w warnings' w') (fun _ _ => False) w := by
  unfold cleanUpKey
  rw [wp_bind, wp_get]
  cases entry : (w.mem.dns.lookup oldKey).filter fun old => oldKey ≠ key ∧ old.owned with
  | none =>
      apply Swept.skip
      rintro old ⟨other, saved, owned⟩
      have unowned := Option.filter_eq_none_iff.mp entry old saved
      simp [other, owned] at unowned
  | some old =>
      simp only [Option.filter_eq_some_iff, decide_eq_true_eq] at entry
      obtain ⟨saved, apart, owned⟩ := entry
      have other : DnsTable.Other w.mem.dns key oldKey old := ⟨apart, saved, owned⟩
      have only (old' : SavedDns) (other' : DnsTable.Other w.mem.dns key oldKey old') : old' = old :=
        Option.some.inj (other'.2.1.symm.trans saved)
      apply wp_bind.mpr
      apply (wp_tryCatch _).mpr
      apply wp_bind.mpr
      apply wp_mono removeOld_spec
      · rintro - w' ⟨touched, kept⟩
        refine ⟨touched.disk, touched.calm, ⟨_, touched.identified other, .inr rfl⟩, touched.thinned other, .inl rfl, ?_, ?_⟩
        · intro _ old' other' gone
          exact absurd (only old' other' ▸ gone) kept
        · exact fun _ _ _ _ => ⟨rfl, AList.lookup_erase _ _⟩
      · rintro failure w' ⟨touched, fails⟩
        refine ⟨touched.disk, touched.calm, ⟨_, touched.identified other, .inl rfl⟩, touched.thinned other,
          .inr ⟨by simp, old, other⟩, ?_, ?_⟩
        · exact fun _ _ _ _ => by simp
        · intro calm old' other' kept
          exact absurd (fails calm) (only old' other' ▸ kept)

theorem Identified.lookup_of_ne {dns dns' : DnsTable} {other : String} (identified : Identified remote dns key oldKey dns')
    (apart : other ≠ oldKey) : dns'.lookup other = dns.lookup other := by
  rcases identified with rfl | ⟨old, -, only, -, rfl⟩
  · rfl
  · exact AList.lookup_insert_ne apart

section Swept

variable {warnings warnings' : List String} (swept : Swept key oldKey warnings w warnings' w')
include swept

theorem Swept.lookup_of_ne {other : String} (apart : other ≠ oldKey) :
    w'.mem.dns.lookup other = w.mem.dns.lookup other := by
  obtain ⟨dns, identified, same | erased⟩ := swept.entries
  · rw [same, identified.lookup_of_ne apart]
  · rw [erased, AList.lookup_erase_ne apart, identified.lookup_of_ne apart]

theorem Swept.other_iff {other : String} (apart : other ≠ oldKey) :
    DnsTable.Other w'.mem.dns key other old ↔ DnsTable.Other w.mem.dns key other old := by
  unfold DnsTable.Other
  rw [swept.lookup_of_ne apart]

/-- An entry of the key that is left was there before. -/
theorem Swept.other_self (there : DnsTable.Other w'.mem.dns key oldKey old) : ∃ old, DnsTable.Other w.mem.dns key oldKey old := by
  obtain ⟨dns, identified | ⟨old', other, -⟩, same | erased⟩ := swept.entries
  · exact ⟨old, by rwa [same, identified] at there⟩
  · have found := there.2.1
    rw [erased, AList.lookup_erase] at found
    cases found
  · exact ⟨old', other⟩
  · exact ⟨old', other⟩

end Swept

theorem Thinned.fewer {dns : DnsTable} (thinned : Thinned remote dns key oldKey remote') : Fewer remote remote' := by
  rcases thinned with rfl | ⟨old, recordId, existing, -, -, -, rfl⟩
  · exact .of_subset (List.Subset.refl _) le_rfl
  · exact .dropRecord remote old.zoneId recordId

theorem Gone.covered {entry : SavedDns} (gone : Gone remote entry) (covered : Covered remote'.records remote.records) :
    Gone remote' entry := by
  obtain ⟨recordId, known, missing⟩ := gone
  refine ⟨recordId, known, ?_⟩
  rw [Remote.record?, List.find?_eq_none] at missing ⊢
  intro record' inside
  obtain ⟨record, member, zone, id, -⟩ := covered record' inside
  rw [zone, id]
  exact missing record member

/-! ## The loop -/

/-- The ids of the records, and of the saved entries in both copies of the state. -/
structure Orderly (cloud : Cloud) (w : World) : Prop where
  distinct : Distinct cloud w.remote
  disk : Kept cloud w.remote w.disk.dns
  mem : Kept cloud w.remote w.mem.dns

theorem Orderly.swept {warnings warnings' : List String} (orderly : Orderly cloud w)
    (swept : Swept key oldKey warnings w warnings' w') : Orderly cloud w' := by
  have fewer := swept.remote.fewer
  have identified (dns : DnsTable) (becomes : Identified w.remote w.mem.dns key oldKey dns) : Kept cloud w.remote dns := by
    rcases becomes with rfl | ⟨old, other, only, listed, rfl⟩
    · exact orderly.mem
    · obtain ⟨place, zone⟩ := orderly.mem.keys other.2.1
      refine orderly.mem.insert place zone ?_ orderly.distinct
      rintro recordId known
      cases known
      simp only [Remote.recordsNamed, List.mem_filter, decide_eq_true_eq] at listed
      exact ⟨only, listed.1, listed.2.1, rfl, listed.2.2⟩
  refine ⟨orderly.distinct.fewer fewer, swept.disk ▸ orderly.disk.fewer fewer, ?_⟩
  obtain ⟨dns, becomes, same | erased⟩ := swept.entries
  · exact same ▸ (identified dns becomes).fewer fewer
  · exact erased ▸ ((identified dns becomes).erase oldKey).fewer fewer

/-- The record of another entry is not the one that was deleted. -/
theorem Orderly.stays {warnings warnings' : List String} {other : String} (orderly : Orderly cloud w)
    (swept : Swept key oldKey warnings w warnings' w') (apart : other ≠ oldKey)
    (there : w.mem.dns.lookup other = some old) (stays : ¬Gone w.remote old) : ¬Gone w'.remote old := by
  rintro ⟨recordId, known, missing⟩
  rcases swept.remote with same | ⟨swept, sweptId, existing, entry, found, name, dropped⟩
  · exact stays ⟨recordId, known, same ▸ missing⟩
  · cases present : w.remote.record? old.zoneId recordId with
    | none => exact stays ⟨recordId, known, present⟩
    | some record =>
        obtain ⟨inside, zone, id⟩ := Remote.record?_eq_some present
        by_cases deleted : record = existing
        · subst deleted
          have sameZone : swept.zoneId = old.zoneId := (Remote.record?_eq_some found).2.1.symm.trans zone
          have sameName : swept.hostname = old.hostname := name.symm.trans (orderly.mem.name there known record inside zone id)
          apply apart
          rw [(orderly.mem.keys there).1, (orderly.mem.keys entry.2.1).1, sameZone, sameName]
        · have left := mem_dropRecord found inside deleted
          rw [dropped, Remote.record?, List.find?_eq_none] at missing
          exact missing record left (by simp [zone, id])

theorem cleanUp_orderly (orderly : Orderly cloud w) :
    wp (cleanUp ctx key) (fun _ w' => Orderly cloud w' ∧ (w.Calm → w'.Calm)) (fun _ _ => False) w := by
  apply wp_bind.mpr
  apply wp_get.mpr
  apply wp_foldlM (fun _ w' => Orderly cloud w' ∧ (w.Calm → w'.Calm)) _ ⟨orderly, id⟩
  rintro warnings oldKey w₁ - ⟨orderly₁, calm₁⟩
  apply wp_mono (cleanUpKey_spec warnings) _ fun _ _ never => never
  exact fun _ _ swept => ⟨orderly₁.swept swept, fun calm => swept.calm (calm₁ calm)⟩

/-- The loop goes over every entry. -/
theorem mem_order {other : String} (there : DnsTable.Other w.mem.dns key other old) : other ∈ (ctx.order w.mem.dns.keys).val := by
  rw [(ctx.order w.mem.dns.keys).property.mem_iff, ← AList.mem_keys, ← AList.lookup_isSome, there.2.1]
  rfl

/-- While the keys of `rest` are left and no record was gone. -/
structure Clearing (cloud : Cloud) (key : String) (rest warnings : List String) (w : World) : Prop where
  orderly : Orderly cloud w
  calm : w.Calm
  unwarned : warnings = []
  left : ∀ other old, DnsTable.Other w.mem.dns key other old → other ∈ rest ∧ ¬Gone w.remote old

theorem Clearing.step {rest warnings warnings' : List String} (clearing : Clearing cloud key (oldKey :: rest) warnings w)
    (swept : Swept key oldKey warnings w warnings' w') : Clearing cloud key rest warnings' w' where
  orderly := clearing.orderly.swept swept
  calm := swept.calm clearing.calm
  unwarned := by
    rw [← clearing.unwarned]
    rcases swept.grown with same | ⟨-, old, there⟩
    · exact same
    · exact (swept.cleared clearing.calm old there (clearing.left oldKey old there).2).1
  left := by
    intro other old there
    by_cases here : other = oldKey
    · subst here
      obtain ⟨old', before⟩ := swept.other_self there
      have cleared := (swept.cleared clearing.calm old' before (clearing.left other old' before).2).2
      cases cleared.symm.trans there.2.1
    · have before := (swept.other_iff here).mp there
      obtain ⟨inside, stays⟩ := clearing.left other old before
      exact ⟨(List.mem_cons.mp inside).resolve_left here, clearing.orderly.stays swept here before.2.1 stays⟩

/-- Without a record that is gone, every other entry is forgotten. -/
theorem cleanUp_clears (orderly : Orderly cloud w) (calm : w.Calm)
    (present : ∀ other old, DnsTable.Other w.mem.dns key other old → ¬Gone w.remote old) :
    wp (cleanUp ctx key) (fun warnings w' => warnings = [] ∧ ∀ other old, ¬DnsTable.Other w'.mem.dns key other old)
      (fun _ _ => False) w := by
  apply wp_bind.mpr
  apply wp_get.mpr
  have start : Clearing cloud key (ctx.order w.mem.dns.keys).val [] w :=
    ⟨orderly, calm, rfl, fun other old there => ⟨mem_order there, present other old there⟩⟩
  apply wp_mono (wp_foldlM_rest (Clearing cloud key) _ start) _ fun _ _ never => never
  · intro oldKey rest warnings w₁ clearing
    exact wp_mono (cleanUpKey_spec warnings) (fun _ _ swept => clearing.step swept) fun _ _ never => never
  · exact fun _ _ cleared => ⟨cleared.unwarned, fun other old there => List.not_mem_nil (cleared.left other old there).1⟩

/-- While the keys of `rest` are left: there is a warning, or the entry whose record is gone is one of them. -/
structure Warning (key other : String) (old : SavedDns) (rest warnings : List String) (w : World) : Prop where
  calm : w.Calm
  ahead : warnings ≠ [] ∨ other ∈ rest ∧ DnsTable.Other w.mem.dns key other old ∧ Gone w.remote old

theorem Warning.step {other : String} {rest warnings warnings' : List String} (warning : Warning key other old (oldKey :: rest) warnings w)
    (swept : Swept key oldKey warnings w warnings' w') : Warning key other old rest warnings' w' where
  calm := swept.calm warning.calm
  ahead := by
    rcases warning.ahead with warned | ⟨inside, there, gone⟩
    · exact .inl (swept.grown.elim (fun same => same ▸ warned) And.left)
    · by_cases here : other = oldKey
      · exact .inl (swept.gone warning.calm old (here ▸ there) gone)
      · exact .inr ⟨(List.mem_cons.mp inside).resolve_left here, (swept.other_iff here).mpr there, gone.covered swept.remote.fewer.records⟩

/-- With a record that is gone there is a warning. -/
theorem cleanUp_warns {other : String} (calm : w.Calm) (there : DnsTable.Other w.mem.dns key other old) (gone : Gone w.remote old) :
    wp (cleanUp ctx key) (fun warnings _ => warnings ≠ []) (fun _ _ => False) w := by
  apply wp_bind.mpr
  apply wp_get.mpr
  have start : Warning key other old (ctx.order w.mem.dns.keys).val [] w := ⟨calm, .inr ⟨mem_order there, there, gone⟩⟩
  apply wp_mono (wp_foldlM_rest (Warning key other old) _ start) _ fun _ _ never => never
  · intro oldKey rest warnings w₁ warning
    exact wp_mono (cleanUpKey_spec warnings) (fun _ _ swept => warning.step swept) fun _ _ never => never
  · exact fun _ _ warned => warned.ahead.resolve_right fun left => List.not_mem_nil left.1

/-! ## A run up to its clean-up -/

theorem Orderly.fewer (orderly : Orderly cloud w) (fewer : Fewer w.remote w'.remote)
    (disk : w'.disk.dns = w.disk.dns ∨ w'.disk.dns = w.mem.dns) (mem : w'.mem.dns = w.mem.dns) : Orderly cloud w' where
  distinct := orderly.distinct.fewer fewer
  disk := by
    rcases disk with kept | saved
    · exact kept ▸ orderly.disk.fewer fewer
    · exact saved ▸ orderly.mem.fewer fewer
  mem := mem ▸ orderly.mem.fewer fewer

/-- The run has left the other entries and their records as they were at its start, and the
listed record is one of its hostname. -/
structure Opened (cloud : Cloud) (zoneId hostname : String) (listed : Option DnsRecord) (w₀ w : World) : Prop
    extends Orderly cloud w where
  calm : w₀.Calm → w.Calm
  others : ∀ other, other ≠ dnsKey zoneId hostname → w.mem.dns.lookup other = w₀.mem.dns.lookup other
  gone : ∀ other entry, other ≠ dnsKey zoneId hostname → w₀.mem.dns.lookup other = some entry →
    (Gone w.remote entry ↔ Gone w₀.remote entry)
  listed : ∀ record ∈ listed, ∃ record' ∈ w.remote.records,
    record'.zoneId = zoneId ∧ record'.id = record.id ∧ record'.name = hostname

variable {zoneId hostname : String} {listed : Option DnsRecord}

theorem Opened.keeps (opened : Opened cloud zoneId hostname listed w₀ w) (fewer : Fewer w.remote w'.remote)
    (back : Covered w.remote.records w'.remote.records) (calm : w.Calm → w'.Calm)
    (disk : w'.disk.dns = w.disk.dns ∨ w'.disk.dns = w.mem.dns) (mem : w'.mem.dns = w.mem.dns) :
    Opened cloud zoneId hostname listed w₀ w' where
  toOrderly := opened.toOrderly.fewer fewer disk mem
  calm := fun start => calm (opened.calm start)
  others := fun other apart => mem ▸ opened.others other apart
  gone := by
    intro other entry apart saved
    rw [← opened.gone other entry apart saved]
    exact ⟨fun gone => gone.covered back, fun gone => gone.covered fewer.records⟩
  listed := by
    intro record inside
    obtain ⟨record', member, zone, id, name⟩ := opened.listed record inside
    obtain ⟨record'', member', sameZone, sameId, sameName⟩ := back record' member
    exact ⟨record'', member', sameZone.symm.trans zone, sameId.symm.trans id, sameName.symm.trans name⟩

/-- A step that does not touch the records. -/
theorem Opened.quiet (opened : Opened cloud zoneId hostname listed w₀ w) (records : w'.remote.records = w.remote.records)
    (created : w.remote.created ≤ w'.remote.created) (calm : w.Calm → w'.Calm)
    (disk : w'.disk.dns = w.disk.dns ∨ w'.disk.dns = w.mem.dns) (mem : w'.mem.dns = w.mem.dns) :
    Opened cloud zoneId hostname listed w₀ w' :=
  opened.keeps (.of_subset (records ▸ List.Subset.refl _) created) (.of_subset (records ▸ List.Subset.refl _)) calm disk mem

theorem opened_stable (cloud : Cloud) (zoneId hostname : String) (listed : Option DnsRecord) (w₀ : World) :
    Stable (Opened cloud zoneId hostname listed w₀) where
  next := fun opened => opened.quiet rfl le_rfl World.Calm.next (.inl rfl) rfl
  shown := fun _ opened => opened.quiet rfl le_rfl id (.inl rfl) rfl
  connector := fun _ opened => opened.quiet rfl le_rfl id (.inl rfl) rfl
  read := fun _ _ opened => opened.quiet rfl le_rfl id (.inl rfl) rfl
  saved := fun opened => opened.quiet rfl le_rfl id (.inr rfl) rfl
  checked := fun _ _ _ opened => opened.quiet rfl le_rfl id (.inl rfl) rfl

/-- Another entry under the key of the run. -/
theorem Opened.enter {saved : SavedDns} (opened : Opened cloud zoneId hostname listed w₀ w) (zone : saved.zoneId = zoneId)
    (name : saved.hostname = hostname) (valid : isId zoneId = true)
    (named : ∀ recordId, saved.id = some recordId → ∃ record ∈ w.remote.records,
      record.zoneId = zoneId ∧ record.id = recordId ∧ record.name = hostname) :
    Opened cloud zoneId hostname listed w₀ (w.enter (dnsKey zoneId hostname) saved) where
  distinct := opened.distinct
  disk := opened.disk
  mem := by
    subst zone name
    exact opened.mem.insert rfl valid named opened.distinct
  calm := opened.calm
  others := fun other apart => (AList.lookup_insert_ne apart).trans (opened.others other apart)
  gone := opened.gone
  listed := opened.listed

theorem Opened.post {record : DnsRecord} {request : Request} (opened : Opened cloud zoneId hostname listed w₀ w)
    (ids : Function.Injective cloud.recordId) (new : record.id = cloud.recordId w.remote.created) (answer : Option request.Answer) :
    Opened cloud zoneId hostname listed w₀ (w.record request answer (w.remote.addRecord record)) where
  distinct := opened.distinct.create new ids
  disk := opened.disk.create new
  mem := opened.mem.create new
  calm := opened.calm
  others := opened.others
  gone := by
    intro other entry apart saved
    rw [← opened.gone other entry apart saved]
    have there : w.mem.dns.lookup other = some entry := (opened.others other apart).trans saved
    have same {recordId : String} (known : entry.id = some recordId) :
        (w.remote.addRecord record).record? entry.zoneId recordId = w.remote.record? entry.zoneId recordId := by
      have skipped : ¬(record.zoneId = entry.zoneId ∧ record.id = recordId) := fun here =>
        opened.mem.given there known w.remote.created le_rfl (new.symm.trans here.2)
      simp [Remote.record?, Remote.addRecord, skipped]
    constructor
    · rintro ⟨recordId, known, missing⟩
      exact ⟨recordId, known, (same known).symm.trans missing⟩
    · rintro ⟨recordId, known, missing⟩
      exact ⟨recordId, known, (same known).trans missing⟩
  listed := by
    intro record inside
    obtain ⟨record', member, rest⟩ := opened.listed record inside
    exact ⟨record', List.mem_cons_of_mem _ member, rest⟩

theorem orderly_stable (cloud : Cloud) : Stable (Orderly cloud) where
  next := fun orderly => orderly.fewer (.of_subset (List.Subset.refl _) le_rfl) (.inl rfl) rfl
  shown := fun _ orderly => orderly.fewer (.of_subset (List.Subset.refl _) le_rfl) (.inl rfl) rfl
  connector := fun _ orderly => orderly.fewer (.of_subset (List.Subset.refl _) le_rfl) (.inl rfl) rfl
  read := fun _ _ orderly => orderly.fewer (.of_subset (List.Subset.refl _) le_rfl) (.inl rfl) rfl
  saved := fun orderly => orderly.fewer (.of_subset (List.Subset.refl _) le_rfl) (.inr rfl) rfl
  checked := fun _ _ _ orderly => orderly.fewer (.of_subset (List.Subset.refl _) le_rfl) (.inl rfl) rfl

variable {accountId tunnelId : String}

theorem finish_saves {warnings : List String} :
    wp (finish ctx hostname accountId tunnelId warnings)
      (fun result w' => result.warnings = warnings ∧ w'.disk.dns = w.mem.dns) (fun _ _ => True) w := by
  apply wp_bind.mpr
  apply wp_progress _ fun _ _ _ => trivial
  apply wp_bind.mpr
  refine wp_call rfl ?_ fun _ _ _ _ => trivial
  apply wp_bind.mpr
  apply wp_assign.mpr
  apply wp_bind.mpr
  apply wp_save _ fun _ _ _ _ => trivial
  exact ⟨rfl, rfl⟩

/-- No other entry is left and there is no warning. -/
def Converged (key : String) (dns : DnsTable) (warnings : List String) : Prop :=
  (∀ other old, ¬DnsTable.Other dns key other old) ∧ warnings = []

/-- No other entry names a record that is gone. -/
def Present (key : String) (remote : Remote) (dns : DnsTable) : Prop :=
  ∀ other old, DnsTable.Other dns key other old → ¬Gone remote old

theorem cleanUp_converges (orderly : Orderly cloud w) :
    wp (cleanUp ctx key)
      (fun warnings w' => w.Calm → (Converged key w'.mem.dns warnings ↔ Present key w.remote w.mem.dns)) (fun _ _ => False) w := by
  by_cases calm : w.Calm
  · by_cases present : Present key w.remote w.mem.dns
    · apply wp_mono (cleanUp_clears orderly calm present) _ fun _ _ never => never
      exact fun _ _ cleared _ => iff_of_true ⟨cleared.2, cleared.1⟩ present
    · have missing := present
      simp only [Present, not_forall, not_not] at missing
      obtain ⟨other, old, there, gone⟩ := missing
      apply wp_mono (cleanUp_warns calm there gone) _ fun _ _ never => never
      exact fun _ _ warned _ => iff_of_false (fun converged => warned converged.2) present
  · apply wp_mono (cleanUp_orderly orderly) _ fun _ _ never => never
    exact fun _ _ _ start => absurd start calm

theorem Opened.present_iff (opened : Opened cloud zoneId hostname listed w₀ w) :
    Present (dnsKey zoneId hostname) w.remote w.mem.dns ↔ Present (dnsKey zoneId hostname) w₀.remote w₀.mem.dns := by
  have other_iff (other : String) (old : SavedDns) : DnsTable.Other w.mem.dns (dnsKey zoneId hostname) other old ↔
      DnsTable.Other w₀.mem.dns (dnsKey zoneId hostname) other old :=
    and_congr_right fun apart => by rw [opened.others other apart]
  apply forall₂_congr
  intro other old
  rw [other_iff]
  exact imp_congr_right fun there => not_congr (opened.gone other old there.1 there.2.1)

/-- The end of a run, from its clean-up. -/
theorem Opened.close (opened : Opened cloud zoneId hostname listed w₀ w) :
    wp (cleanUp ctx (dnsKey zoneId hostname) >>= finish ctx hostname accountId tunnelId)
      (fun result w' => Orderly cloud w' ∧ (w₀.Calm →
        (Converged (dnsKey zoneId hostname) w'.disk.dns result.warnings ↔
          Present (dnsKey zoneId hostname) w₀.remote w₀.mem.dns)))
      (fun _ w' => Orderly cloud w') w := by
  apply wp_bind.mpr
  apply wp_mono (wp_and (cleanUp_orderly opened.toOrderly) (cleanUp_converges opened.toOrderly)) _ fun _ _ never => never.1.elim
  rintro warnings w₁ ⟨⟨orderly₁, -⟩, converges⟩
  apply wp_mono (wp_and ((orderly_stable cloud).finish_spec orderly₁) finish_saves)
  · rintro result w' ⟨⟨orderly', -⟩, warned, saved⟩
    refine ⟨orderly', fun calm => ?_⟩
    rw [warned, saved, converges (opened.calm calm), opened.present_iff]
  · exact fun _ _ fails => fails.1.1

theorem ensureRecord_opened {tunnelId : String} (ids : Function.Injective ctx.cloud.recordId) (valid : isId zoneId = true)
    (opened : Opened ctx.cloud zoneId hostname listed w₀ w) :
    wp (ensureRecord ctx zoneId hostname tunnelId listed) (fun _ w' => Opened ctx.cloud zoneId hostname listed w₀ w')
      (fun _ w' => Opened ctx.cloud zoneId hostname listed w₀ w') w := by
  apply (opened_stable ctx.cloud zoneId hostname listed w₀).ensureRecord_spec opened
  · exact fun opened => opened.enter rfl rfl valid (by simp [recordEntry])
  · intro w type name comment answer remote opened reached
    rcases reached with rfl | rfl
    · exact opened.quiet rfl le_rfl id (.inl rfl) rfl
    · exact opened.post ids rfl answer
  · intro w record comment state remote opened _ inside zone name
    refine opened.enter rfl rfl valid ?_
    rintro recordId known
    cases known
    exact ⟨record, inside, zone, rfl, name⟩
  · intro w recordId saved answer remote opened _ _ _ reached
    rcases reached with rfl | rfl
    · exact opened.quiet rfl le_rfl id (.inl rfl) rfl
    · exact opened.keeps (.setProxied _ _ _ _) (.setProxied _ _ _ _) id (.inl rfl) rfl

/-- The record that is taken over is one of the hostname. -/
theorem Opened.adopt {record : DnsRecord} {saved : SavedDns} (opened : Opened cloud zoneId hostname listed w₀ w)
    (valid : isId zoneId = true) (here : listed = some record) (entry : w.mem.dns.lookup (dnsKey zoneId hostname) = some saved) :
    Opened cloud zoneId hostname listed w₀
      (w.enter (dnsKey zoneId hostname) { saved with id := some record.id, pending := false }) := by
  obtain ⟨place, valid'⟩ := opened.mem.keys entry
  obtain ⟨zone, name⟩ := dnsKey_inj valid valid' place
  refine opened.enter zone.symm name.symm valid ?_
  rintro recordId known
  cases known
  exact opened.listed record here

/-- The matched record is in the account. -/
theorem Survey.Seen.matched {found : Survey} {target : String} {record : DnsRecord} (seen : found.Seen ctx hostname w w')
    (matched : matchingDns found.records hostname target = .ok (some record)) :
    ∃ record' ∈ w'.remote.records, record'.zoneId = found.zone.id ∧ record'.id = record.id ∧ record'.name = hostname := by
  obtain ⟨records, name, -⟩ := matchingDns_eq_some matched
  have inside : record ∈ (w.remote.recordsNamed found.zone.id hostname).take 100 :=
    seen.records ▸ records ▸ List.mem_singleton_self record
  have member := List.mem_of_mem_take inside
  simp only [Remote.recordsNamed, List.mem_filter, decide_eq_true_eq] at member
  exact ⟨record, seen.same.remote.symm ▸ member.1, member.2.1, rfl, name⟩

/-- Whatever becomes of its calls, a run keeps the ids in order. Where every call is served and it
returns, it has converged exactly when no other entry named a record that was gone. -/
theorem deploy_cleans (settings : Settings) (ids : Function.Injective ctx.cloud.recordId) (orderly : Orderly ctx.cloud w) :
    wp (deploy ctx settings)
      (fun result w' => Orderly ctx.cloud w' ∧ ∃ zone, hostZone ctx.cloud settings.hostname = .ok zone ∧
        (w.Calm → (Converged (dnsKey zone.id settings.hostname) w'.disk.dns result.warnings ↔
          Present (dnsKey zone.id settings.hostname) w.remote w.mem.dns)))
      (fun _ w' => Orderly ctx.cloud w') w := by
  have stable := orderly_stable ctx.cloud
  refine wp_seq (stable.survey_spec orderly) ?_ fun _ _ fails => fails.1
  rintro found w₁ ⟨orderly₁, seen⟩
  obtain ⟨-, -, valid, -⟩ := zoneOf_eq_ok seen.zone
  have opened₁ : Opened ctx.cloud found.zone.id settings.hostname none w w₁ := by
    refine ⟨orderly₁, seen.same.calm, fun _ _ => by rw [seen.same.mem], fun _ _ _ _ => by rw [seen.same.remote], ?_⟩
    simp
  refine wp_seq ((opened_stable _ _ _ _ _).reconcileTunnel_spec opened₁ ?adopted) ?_
    fun _ _ fails => fails.1.toOrderly
  case adopted => exact fun _ _ _ => opened₁.quiet rfl le_rfl id (.inl rfl) rfl
  rintro - w₂ ⟨opened₂, -, remote₂, -⟩
  refine wp_bind.mpr (wp_lift (fun listed matched => ?_) fun _ _ => opened₂.toOrderly)
  have opened₂ : Opened ctx.cloud found.zone.id settings.hostname listed w w₂ := by
    refine { opened₂ with listed := ?_ }
    rintro record rfl
    rw [remote₂]
    exact seen.matched matched
  have stable := opened_stable ctx.cloud found.zone.id settings.hostname listed w
  refine wp_seq (stable.progress_spec opened₂) ?_ fun _ _ fails => fails.1.toOrderly
  rintro - w₃ ⟨opened₃, -⟩
  refine wp_seq (stable.ensureTunnel_spec opened₃ ?entered ?posted) ?_ fun _ _ fails => fails.toOrderly
  case entered => exact fun _ opened => opened.quiet rfl le_rfl id (.inl rfl) rfl
  case posted =>
      intro w answer remote opened reached
      rcases reached with rfl | rfl
      · exact opened.quiet rfl le_rfl id (.inl rfl) rfl
      · exact opened.quiet rfl (Nat.le_succ _) id (.inl rfl) rfl
  intro made w₄ opened₄
  refine wp_seq (stable.prepareRoute_spec opened₄) ?_ fun _ _ fails => fails.1.toOrderly
  rintro ⟨config, token⟩ w₅ ⟨opened₅, -⟩
  refine wp_seq (stable.progress_spec opened₅) ?_ fun _ _ fails => fails.1.toOrderly
  rintro - w₆ ⟨opened₆, -⟩
  refine wp_seq (stable.adoptRecord_spec opened₆ ?adopted) ?_ fun _ _ fails => fails.1.toOrderly
  case adopted => exact fun record saved here entry _ => opened₆.adopt valid here entry
  rintro - w₇ ⟨opened₇, -⟩
  refine wp_seq (ensureRecord_opened ids valid opened₇) ?_ fun _ _ fails => fails.toOrderly
  intro record w₈ opened₈
  refine wp_seq (stable.publish_spec opened₈ ?put ?activated) ?_ fun _ _ fails => fails.1.toOrderly
  case put =>
      intro w' answer remote _ opened reached
      rcases reached with rfl | rfl
      · exact opened.quiet rfl le_rfl id (.inl rfl) rfl
      · exact opened.quiet rfl le_rfl id (.inl rfl) rfl
  case activated => exact fun opened => opened.quiet rfl le_rfl id (.inl rfl) rfl
  intro _ w₉ opened₉
  refine wp_mono opened₉.close ?_ fun _ _ orderly' => orderly'
  exact fun _ _ closed => ⟨closed.1, found.zone, seen.zone, closed.2⟩

/-! ## Histories -/

/-- An edit of the account that creates no record and renames none. -/
structure Deletes (edit : Remote → Remote) : Prop where
  records : ∀ remote, (edit remote).records ⊆ remote.records
  created : ∀ remote, (edit remote).created = remote.created

theorem Orderly.edited {edit : Remote → Remote} (orderly : Orderly cloud w) (deletes : Deletes edit) (outcomes : List Outcome) :
    Orderly cloud (({ w with remote := edit w.remote } : World).restart outcomes) := by
  have fewer : Fewer w.remote (edit w.remote) := .of_subset (deletes.records _) (Nat.le_of_eq (deletes.created _).symm)
  exact ⟨orderly.distinct.fewer fewer, orderly.disk.fewer fewer, orderly.disk.fewer fewer⟩

/-- The turn is one of the plugin with these ids, after records were deleted. -/
structure Turn.Thins (turn : Turn) (cloud : Cloud) : Prop where
  deletes : Deletes turn.edit
  cloud : turn.run.ctx.cloud = cloud

theorem Turn.orderly (turn : Turn) (ids : Function.Injective cloud.recordId) (thins : turn.Thins cloud)
    (orderly : Orderly cloud w) : Orderly cloud (turn.after w) := by
  obtain ⟨deletes, rfl⟩ := thins
  apply finalState_of_wp
  apply wp_mono (deploy_cleans turn.run.settings ids (orderly.edited deletes turn.run.outcomes))
  · exact fun _ _ done => done.1
  · exact fun _ _ orderly' => orderly'

theorem history_orderly (ids : Function.Injective cloud.recordId) (turns : List Turn)
    (thins : ∀ turn ∈ turns, turn.Thins cloud) (orderly : Orderly cloud w) : Orderly cloud (turns.foldl Turn.after w) := by
  induction turns generalizing w with
  | nil => exact orderly
  | cons turn turns ih =>
      have first := turn.orderly ids (thins turn List.mem_cons_self) orderly
      exact ih (fun turn inside => thins turn (List.mem_cons_of_mem _ inside)) first

theorem orderly_initial (distinct : Distinct cloud remote) : Orderly cloud (.initial remote) := by
  have empty : Kept cloud remote SavedState.empty.dns := by
    constructor <;> intros <;> contradiction
  exact ⟨distinct, empty, empty⟩

/-- The world in which the run of a turn starts. -/
def Turn.start (turn : Turn) (w : World) : World := { w with remote := turn.edit w.remote }

/-- After any runs and deletions, a run whose calls are all served leaves no other entry and no
warning exactly when every other entry with an id names a record that is still there. -/
theorem served_run_converges_iff (cloud : Cloud) (ids : Function.Injective cloud.recordId) (remote : Remote)
    (distinct : Distinct cloud remote) (turns : List Turn) (thins : ∀ turn ∈ turns, turn.Thins cloud) (last : Turn)
    (lastThins : last.Thins cloud) (served : ∀ outcome ∈ last.run.outcomes, outcome = .served) (result : Deployment) (w' : World)
    (returns : deploy last.run.ctx last.run.settings
      ((last.start (turns.foldl Turn.after (.initial remote))).restart last.run.outcomes) = .ok result w') :
    ∃ zone, hostZone cloud last.run.settings.hostname = .ok zone ∧
      (Converged (dnsKey zone.id last.run.settings.hostname) w'.disk.dns result.warnings ↔
        Present (dnsKey zone.id last.run.settings.hostname) (last.start (turns.foldl Turn.after (.initial remote))).remote
          (turns.foldl Turn.after (.initial remote)).disk.dns) := by
  have orderly := (history_orderly ids turns thins (orderly_initial distinct)).edited lastThins.deletes last.run.outcomes
  have same := lastThins.cloud
  subst same
  obtain ⟨-, zone, ok, converges⟩ := wp_done (deploy_cleans last.run.settings ids orderly) returns
  exact ⟨zone, ok, converges served⟩

/-! ## A deleted record -/

theorem DnsTable.other_iff {dns : DnsTable} {other : String} :
    DnsTable.Other dns key other old ↔
      (⟨other, old⟩ : Sigma fun _ : String => SavedDns) ∈ dns.entries ∧ other ≠ key ∧ old.owned = true := by
  rw [← AList.mem_lookup_iff, Option.mem_def]
  exact and_left_comm

instance (remote : Remote) (entry : SavedDns) : Decidable (Gone remote entry) :=
  decidable_of_iff (∃ recordId ∈ entry.id, remote.record? entry.zoneId recordId = none) Iff.rfl

instance (key : String) (remote : Remote) (dns : DnsTable) : Decidable (Present key remote dns) :=
  decidable_of_iff (∀ saved ∈ dns.entries, saved.1 ≠ key ∧ saved.2.owned = true → ¬Gone remote saved.2) <| by
    simp only [Present, DnsTable.other_iff, and_imp, Sigma.forall]

instance (key : String) (dns : DnsTable) (warnings : List String) : Decidable (Converged key dns warnings) :=
  decidable_of_iff ((∀ saved ∈ dns.entries, ¬(saved.1 ≠ key ∧ saved.2.owned = true)) ∧ warnings = []) <| by
    simp only [Converged, DnsTable.other_iff, not_and, Sigma.forall]

/-- Ids that are never given out twice; the first sixteen have the length of an id. -/
def uniqueId (n : ℕ) : String :=
  if n < 16 then numbered "0000000000000000000000000000000" n else String.ofList (List.replicate (n + 100) '0')

theorem numbered_length (start : String) (n : ℕ) : (numbered start n).toList.length = start.toList.length + 1 := by
  simp [numbered]

theorem numbered_inj {start : String} {m n : ℕ} (first : m < 16) (second : n < 16)
    (same : numbered start m = numbered start n) : m = n := by
  have digits : ∀ m < 16, ∀ n < 16,
      "0123456789abcdef".toList.getD (m % 16) '0' = "0123456789abcdef".toList.getD (n % 16) '0' → m = n := by
    decide +kernel
  have last := String.ofList_injective ((String.append_right_inj start).mp same)
  exact digits m first n second (List.singleton_inj.mp last)

theorem uniqueId_injective : Function.Injective uniqueId := by
  have short (n : ℕ) (small : n < 16) : (uniqueId n).toList.length = 32 := by
    rw [uniqueId, if_pos small, numbered_length]
    rfl
  have long (n : ℕ) (large : ¬n < 16) : (uniqueId n).toList.length = n + 100 := by
    rw [uniqueId, if_neg large, String.toList_ofList, List.length_replicate]
  intro m n same
  have lengths : (uniqueId m).toList.length = (uniqueId n).toList.length := by rw [same]
  by_cases first : m < 16 <;> by_cases second : n < 16
  · rw [uniqueId, uniqueId, if_pos first, if_pos second] at same
    exact numbered_inj first second same
  · rw [short m first, long n second] at lengths
    omega
  · rw [long m first, short n second] at lengths
    omega
  · rw [long m first, long n second] at lengths
    omega

def uniqueFixture : Ctx := { fixture with cloud := { fixture.cloud with recordId := uniqueId } }

/-- The device deploys a hostname and then another one, before which records may be deleted. -/
def firstTurn : Turn := { edit := id, run := uniqueFixture.run "router.example.com" [] }

def secondTurn (edit : Remote → Remote) : Turn := { edit := edit, run := uniqueFixture.run "office.example.com" [] }

/-- The world in which the second run starts. -/
def secondStart (edit : Remote → Remote) : World :=
  ((secondTurn edit).start ([firstTurn].foldl Turn.after (.initial vacant))).restart []

theorem distinct_vacant (cloud : Cloud) : Distinct cloud vacant := ⟨by simp [vacant], by simp [vacant]⟩

theorem deletes_id : Deletes id := ⟨fun _ => List.Subset.refl _, fun _ => rfl⟩

theorem served_run_converges_iff_moved : ∃ result w' zone,
    deploy uniqueFixture (secondTurn id).run.settings (secondStart id) = .ok result w' ∧
      Converged (dnsKey zone "office.example.com") w'.disk.dns result.warnings := by
  have returns : raised? (deploy uniqueFixture (secondTurn id).run.settings) (secondStart id) = none := by decide +kernel
  obtain ⟨result, ok⟩ := eq_ok_of_raised? returns
  obtain ⟨zone, found, converges⟩ := served_run_converges_iff uniqueFixture.cloud uniqueId_injective vacant (distinct_vacant _)
    [firstTurn] (by simpa using ⟨deletes_id, rfl⟩) (secondTurn id) ⟨deletes_id, rfl⟩ (by simp [secondTurn, Ctx.run]) result _ ok
  refine ⟨result, _, zone.id, ok, converges.mpr ?_⟩
  have only : zone.id = "11111111111111111111111111111111" := by
    obtain ⟨inside, -⟩ := zoneOf_eq_ok found
    rw [List.mem_singleton.mp inside]
  rw [only]
  decide +kernel

/-- The deletion of every record. -/
def dropAll (remote : Remote) : Remote := { remote with records := [] }

theorem deletes_dropAll : Deletes dropAll := ⟨fun _ => List.nil_subset _, fun _ => rfl⟩

/-- The record of the first hostname is deleted by hand: its entry stays, with a warning. -/
theorem deleted_record_is_kept :
    ¬∀ (cloud : Cloud) (remote : Remote) (turns : List Turn) (last : Turn) (result : Deployment) (w' : World),
      Function.Injective cloud.recordId → Distinct cloud remote → (∀ turn ∈ turns, turn.Thins cloud) → last.Thins cloud →
      (∀ outcome ∈ last.run.outcomes, outcome = .served) →
      deploy last.run.ctx last.run.settings
        ((last.start (turns.foldl Turn.after (.initial remote))).restart last.run.outcomes) = .ok result w' →
      ∃ zone, hostZone cloud last.run.settings.hostname = .ok zone ∧
        Converged (dnsKey zone.id last.run.settings.hostname) w'.disk.dns result.warnings := by
  intro claim
  have returns : raised? (deploy uniqueFixture (secondTurn dropAll).run.settings) (secondStart dropAll) = none := by
    decide +kernel
  obtain ⟨result, ok⟩ := eq_ok_of_raised? returns
  obtain ⟨zone, found, converged⟩ := claim uniqueFixture.cloud vacant [firstTurn] (secondTurn dropAll) result _
    uniqueId_injective (distinct_vacant _) (by simpa using ⟨deletes_id, rfl⟩) ⟨deletes_dropAll, rfl⟩
    (by simp [secondTurn, Ctx.run]) ok
  have only : zone.id = "11111111111111111111111111111111" := by
    obtain ⟨inside, -⟩ := zoneOf_eq_ok found
    rw [List.mem_singleton.mp inside]
  rw [only] at converged
  have kept : ¬Converged (dnsKey "11111111111111111111111111111111" "office.example.com")
      (finalState (deploy uniqueFixture (secondTurn dropAll).run.settings) (secondStart dropAll)).disk.dns [] := by
    decide +kernel
  exact kept ⟨converged.1, rfl⟩

end XWrt.CloudflareTunnel
