import XWrt.Natflow.NetsScript

/-!
# Network lists, end to end

When both readers of a list that the web form accepts match what the list says.
They do for IPv4 addresses. An IPv6 item is lost in the worker by white space
that Lua does not know, and in the script by white space that the shell does not
know or, beside other items, by a spelling of `::/0` other than this one.
-/

namespace XWrt.Natflow

open Foundation.Text

/-- The worker matches the addresses of the list and no others. -/
def WorkerExact (nets : List Char) : Prop :=
  ∀ text address, Writes text address → ∀ mac,
    userMatches (compileRule (storedText nets) "") text mac = true ↔ InNets nets address

/-- The script ends, and what it selects are the addresses of the list. -/
def ScriptExact (glob : String → List String) (nets : List Char) : Prop :=
  ∃ fuel ipList, formatIpStrings glob fuel (storedText nets) = some ipList ∧
    ∀ address, SelectorMatches ipList address ↔ InNets nets address

/-- No white space that Lua does not know is next to the item. -/
def keptByWorker (token : List Char) : Bool := clean isSpace token

/-- The items that are kept have all IPv6 addresses of the list. -/
def Covered (kept : List Char → Bool) (nets : List Char) : Prop :=
  ∀ token ∈ nets.splitOn ',', ∀ addr, InNet (jsTrim token) (.ipv6 addr) →
    ∃ other ∈ nets.splitOn ',', kept other = true ∧ InNet (jsTrim other) (.ipv6 addr)

theorem covered_iff (kept : List Char → Bool) (nets : List Char) : Covered kept nets ↔ ∀ addr,
    ((∃ token ∈ nets.splitOn ',', kept token = true ∧ InNet (jsTrim token) (.ipv6 addr)) ↔ InNets nets (.ipv6 addr)) := by
  constructor
  · intro covered addr
    constructor
    · rintro ⟨token, listed, -, inside⟩
      exact ⟨token, listed, inside⟩
    · rintro ⟨token, listed, inside⟩
      exact covered token listed addr inside
  · exact fun same token listed addr inside => (same addr).mpr ⟨token, listed, inside⟩

theorem covered_of_kept {kept : List Char → Bool} {nets : List Char} (all : ∀ token ∈ nets.splitOn ',', kept token = true) :
    Covered kept nets := fun token listed _ inside => ⟨token, listed, all token listed, inside⟩

section Exact

variable {nets : List Char} (items : ∀ token ∈ nets.splitOn ',', Item (jsTrim token))
include items

theorem workerExact_iff : WorkerExact nets ↔ Covered keptByWorker nets := by
  rw [covered_iff]
  constructor
  · intro agree addr
    obtain ⟨text, written⟩ := exists_text addr
    exact (userMatches_ipv6 items written "").symm.trans (agree text (.ipv6 addr) written "")
  · rintro covered text (quad | addr) written mac
    · exact userMatches_ipv4 items written mac
    · exact (userMatches_ipv6 items written mac).trans (covered addr)

theorem scriptExact_iff {glob : String → List String} (plain : KeepsPlain glob) :
    ScriptExact glob nets ↔ Covered (keptByScript nets) nets := by
  obtain ⟨blocks, within, ipv4, none, ⟨fuel, run⟩, only⟩ := formatIpStrings_storedText items plain
  have ipv6 := script_ipv6 items none within
  rw [covered_iff]
  constructor
  · rintro ⟨fuel, ipList, printed, agree⟩ addr
    rw [only fuel ipList printed] at agree
    exact (ipv6 addr).symm.trans (agree (.ipv6 addr))
  · intro covered
    refine ⟨fuel, _, run, ?_⟩
    rintro (quad | addr)
    · exact (selectorMatches_ipv4 within (v6Words_colons items) (some_word none) quad).trans (ipv4 quad)
    · exact (ipv6 addr).trans (covered addr)

end Exact

theorem items_of_accepted {v : Validation} {nets : List Char} (accepted : netsValidate v nets = true) :
    ∀ token ∈ nets.splitOn ',', Item (jsTrim token) :=
  fun token listed => ipTokenValidate_item (List.all_eq_true.mp accepted token listed)

/-- Both readers match a list that the form accepts exactly when the IPv6 items that each of them keeps
have all IPv6 addresses of the list. -/
theorem netsValidate_exact_iff {v : Validation} {glob : String → List String} (plain : KeepsPlain glob) {nets : List Char}
    (accepted : netsValidate v nets = true) : WorkerExact nets ∧ ScriptExact glob nets ↔
      Covered keptByWorker nets ∧ Covered (keptByScript nets) nets :=
  and_congr (workerExact_iff (items_of_accepted accepted)) (scriptExact_iff (items_of_accepted accepted) plain)

/-! ## Two lists -/

theorem literal_spelledZero : Ipv6Literal ['0', ':', ':'] (List.replicate 8 0) := by
  have group : IsGroup ['0'] 0 := ⟨by decide, by decide, List.all_eq_true.mp rfl, rfl⟩
  exact .compressed (.cons group .nil) .nil (by decide)

theorem literal_linkLocal : Ipv6Literal ['f', 'e', '8', '0', ':', ':', '1'] [0xfe80, 0, 0, 0, 0, 0, 0, 1] := by
  have front : IsGroup ['f', 'e', '8', '0'] 0xfe80 := ⟨by decide, by decide, List.all_eq_true.mp rfl, rfl⟩
  have back : IsGroup ['1'] 1 := ⟨by decide, by decide, List.all_eq_true.mp rfl, rfl⟩
  exact .compressed (.cons front .nil) (.group back .nil) (by decide)

/-- A form that knows the IPv4 addresses and two of IPv6. -/
def twoAddresses : Validation where
  parseIPv4 := quadRe
  parseIPv6 addr := addr = ['0', ':', ':'] ∨ addr = ['f', 'e', '8', '0', ':', ':', '1']
  ipv4 addr matched := by
    obtain ⟨quad, parts, spelled, written⟩ := quadRe_spells matched
    exact ⟨quad, parts, spelled, by rw [String.toList_ofList, written]; rfl⟩
  ipv6 addr parsed := by
    rcases of_decide_eq_true parsed with rfl | rfl
    · exact ⟨_, literal_spelledZero⟩
    · exact ⟨_, literal_linkLocal⟩

theorem keepsPlain_self : KeepsPlain fun word => [word] := fun _ _ => rfl

theorem netsValidate_exact_linkLocal :
    WorkerExact "10.0.0.0/8, fe80::1".toList ∧ ScriptExact (fun word => [word]) "10.0.0.0/8, fe80::1".toList := by
  have accepted : netsValidate twoAddresses "10.0.0.0/8, fe80::1".toList = true := by decide
  exact (netsValidate_exact_iff keepsPlain_self accepted).mpr ⟨covered_of_kept (by decide), covered_of_kept (by decide)⟩

/-- Beside an IPv4 network, `0::/0` is lost in the script. -/
theorem spelledZero_lost : netsValidate twoAddresses "0::/0,10.0.0.0/8".toList = true ∧
    ¬ScriptExact (fun word => [word]) "0::/0,10.0.0.0/8".toList := by
  have accepted : netsValidate twoAddresses "0::/0,10.0.0.0/8".toList = true := by decide
  have tokens : "0::/0,10.0.0.0/8".toList.splitOn ',' = ["0::/0".toList, "10.0.0.0/8".toList] := by decide
  refine ⟨accepted, fun agree => ?_⟩
  have covered := (scriptExact_iff (items_of_accepted accepted) keepsPlain_self).mp agree
  have zero : ∀ char ∈ ['0'], char.isDigit = true := List.all_eq_true.mp rfl
  let addr : Ipv6Bytes := ⟨List.replicate 16 0, by decide, by decide⟩
  have inside : InNet "0::/0".toList (.ipv6 addr) := ⟨_, _, .cidr literal_spelledZero zero (by decide) (by decide), rfl⟩
  obtain ⟨other, listed, kept, inside⟩ := covered "0::/0".toList (by rw [tokens]; exact .head _) addr inside
  rw [tokens] at listed
  rcases List.mem_pair.mp listed with rfl | rfl
  · exact absurd kept (by decide)
  · exact not_inNet_ipv6 (by decide) addr inside

end XWrt.Natflow
