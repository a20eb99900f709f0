import Slate.DNSManipulator
import Slate.Library.Serving

/-! Which record sets of a hosted zone the manipulator leaves alone, and which it can go on
to manage. -/

namespace Slate
open Library

/-- The heritage record exists for the name. -/
def Tagged (records : RecordSets) (name : String) : Prop :=
  ∃ text ∈ recordData records name .TXT, containsText text heritageTag = true

def JudgedSafe (records : RecordSets) (name : String) (type : RRType) : Prop :=
  records.lookup (name, type) = none ∨ Tagged records name

/-- A call of the manipulator: its action is to set a record or to remove one. -/
structure DNSCall where
  action : ChangeAction
  name : String
  address : String
  deriving DecidableEq, Repr

def DNSCall.serve (call : DNSCall) : DNS → Except String Bool × DNS :=
  match call.action with
  | .upsert => attempt (setDNSRecord call.name call.address)
  | .delete => attempt (removeDNSRecord call.name call.address)

def otherAddressType : RRType → RRType
  | .A => .AAAA
  | .AAAA => .A
  | type => type

/-- A record is set for a name that is tagged, or else it exists already or the name has
neither a text record nor an address record of the other type. It is not removed from a
tagged name that has an address record of the other type. -/
def DNSCall.Separate (call : DNSCall) (dns : DNS) : Prop :=
  ∀ type, addressType call.address = .ok type →
    (call.action = .upsert → ¬ Tagged dns.records call.name → dns.records.lookup (call.name, type) = none →
      dns.records.lookup (call.name, .TXT) = none ∧ dns.records.lookup (call.name, otherAddressType type) = none) ∧
    (call.action = .delete → Tagged dns.records call.name → dns.records.lookup (call.name, type) ≠ none →
      dns.records.lookup (call.name, otherAddressType type) = none)

instance (records : RecordSets) (name : String) : Decidable (Tagged records name) :=
  inferInstanceAs (Decidable (∃ text ∈ _, _))

instance (call : DNSCall) (dns : DNS) : Decidable (call.Separate dns) :=
  match guessed : addressType call.address with
  | .error _ => .isTrue fun _ same => nomatch guessed.symm.trans same
  | .ok type =>
    decidable_of_iff
      ((call.action = .upsert → ¬ Tagged dns.records call.name → dns.records.lookup (call.name, type) = none →
          dns.records.lookup (call.name, .TXT) = none ∧ dns.records.lookup (call.name, otherAddressType type) = none) ∧
        (call.action = .delete → Tagged dns.records call.name → dns.records.lookup (call.name, type) ≠ none →
          dns.records.lookup (call.name, otherAddressType type) = none))
      ⟨fun apart _ same => Except.ok.inj (guessed.symm.trans same) ▸ apart, fun apart => apart type guessed⟩

theorem addressType_cases {address : String} {type : RRType} (guessed : addressType address = .ok type) :
    type = .A ∨ type = .AAAA := by
  unfold addressType at guessed
  split at guessed
  · cases guessed
  · split at guessed
    · exact .inl (Except.ok.inj guessed).symm
    · split at guessed
      · exact .inr (Except.ok.inj guessed).symm
      · cases guessed

section Requests
variable (dns : DNS) (name : String) (type : RRType)

theorem ends_zoneForName : Ends (zoneForName name) dns (fun _ after => after = dns) fun _ after => after = dns := by
  unfold zoneForName
  split <;> exact rfl

theorem ends_hostedZone (zone : String) : Ends (hostedZone zone) dns (fun _ after => after = dns) fun _ after => after = dns := by
  unfold hostedZone
  rw [ends_bind, ends_get]
  split <;> exact rfl

theorem ends_testDNSAnswer (what : String) : Ends (testDNSAnswer name type what) dns
    (fun data after => after.records = dns.records ∧ data = recordData dns.records name type)
    fun _ after => after.records = dns.records := by
  unfold testDNSAnswer
  rw [ends_bind, DNS.request, ends_modifyGet]
  cases dns.errors 0 with
  | some error => exact rfl
  | none => exact ⟨rfl, rfl⟩

/-- Looking a record up gives the data that there is for its name, and changes none. -/
theorem ends_getDNSRecord : Ends (getDNSRecord type name) dns
    (fun data after => after.records = dns.records ∧ data = recordData dns.records name type)
    fun _ after => after.records = dns.records := by
  unfold getDNSRecord
  rw [ends_bind, ends_get]
  cases dns.validServer with
  | false => exact rfl
  | true =>
    simp only [if_true]
    rw [ends_bind]
    refine (ends_zoneForName dns name).mono ?_ fun error after same => congrArg DNS.records same
    rintro zone after rfl
    rw [ends_bind]
    refine (ends_hostedZone after zone).mono ?_ fun error last same => congrArg DNS.records same
    rintro id last rfl
    exact ends_testDNSAnswer last name type _

private theorem judgedSafe_iff (records : RecordSets) : JudgedSafe records name type ↔
    (!(!(recordData records name type).isEmpty) ||
      (recordData records name .TXT).any fun record => containsText record heritageTag) = true := by
  rw [JudgedSafe, Tagged, Bool.or_eq_true, Bool.not_not, List.isEmpty_iff, List.any_eq_true]
  refine or_congr_left ?_
  unfold recordData
  cases records.lookup (name, type) with
  | none => exact iff_of_true rfl rfl
  | some set => exact iff_of_false (fun none => nomatch none) set.some

private theorem ends_safeToModifyDNS : Ends (safeToModifyDNS name type) dns
    (fun safe after => after.records = dns.records ∧ (safe = true ↔ JudgedSafe dns.records name type))
    fun _ after => after.records = dns.records := by
  unfold safeToModifyDNS
  rw [ends_bind]
  refine (ends_zoneForName dns name).mono ?_ fun error after same => congrArg DNS.records same
  intro zone after same
  rw [same, ends_bind]
  refine (ends_hostedZone dns zone).mono ?_ fun error after same => congrArg DNS.records same
  intro id after same
  rw [same, ends_bind]
  refine (ends_testDNSAnswer dns name type "A").mono ?_ fun error after same => same
  rintro base first ⟨firstSame, rfl⟩
  rw [ends_bind]
  refine (ends_testDNSAnswer first name .TXT "TXT").mono ?_ fun error after same => same.trans firstSame
  rintro heritage second ⟨secondSame, rfl⟩
  rw [ends_pure, firstSame]
  exact ⟨secondSame.trans firstSame, (judgedSafe_iff name type dns.records).symm⟩

private theorem ends_changeResourceRecordSets (action : ChangeAction) (main txt : RecordSet) :
    Ends (changeResourceRecordSets action name type main txt) dns
      (fun result after => if result = true then applyChanges action dns.records name type main txt = some after.records
        else after.records = dns.records)
      fun _ after => after.records = dns.records := by
  unfold changeResourceRecordSets
  rw [ends_bind, DNS.request, ends_modifyGet]
  cases dns.errors 0 with
  | some error => exact rfl
  | none =>
    simp only [Option.isSome_none, Bool.false_eq_true, if_false, ends_bind, ends_get]
    cases changed : applyChanges action dns.records name type main txt with
    | none => exact rfl
    | some records => exact rfl

/-- A record is changed only where it is judged safe, together with the one that marks it. -/
theorem ends_changeDNSRecord (action : ChangeAction) (address : String) : Ends (changeDNSRecord action name address) dns
    (fun result after => if result = true then ∃ type, addressType address = .ok type ∧ JudgedSafe dns.records name type ∧
        applyChanges action dns.records name type (.single address) heritageRecord = some after.records
      else after.records = dns.records)
    fun _ after => after.records = dns.records := by
  unfold changeDNSRecord
  rw [ends_bind, ends_get, ends_ite]
  split
  · cases guessed : addressType address with
    | error thrown => exact rfl
    | ok type =>
      dsimp only
      rw [changeIfSafe, ends_bind]
      refine (ends_safeToModifyDNS dns name type).mono ?_ fun error after same => same
      rintro safe first ⟨firstSame, judged⟩
      rw [ends_ite]
      split
      next yes =>
        rw [ends_bind]
        refine (ends_zoneForName first name).mono ?_ fun error after same => (congrArg DNS.records same).trans firstSame
        intro zone second same
        rw [same, ends_bind]
        refine (ends_hostedZone first zone).mono ?_ fun error after same => (congrArg DNS.records same).trans firstSame
        intro id third same
        rw [same]
        refine (ends_changeResourceRecordSets first name type action _ _).mono ?_ fun error after same => same.trans firstSame
        intro result after changed
        rw [firstSame] at changed
        split at changed
        next done =>
          rw [if_pos done]
          exact ⟨type, rfl, judged.mp yes, changed⟩
        next failed =>
          rw [if_neg failed]
          exact changed
      next no => exact firstSame
  · exact rfl

end Requests

/-- What a call does to the record sets, if anything. -/
theorem serve_cases (call : DNSCall) (dns : DNS) :
    ((call.serve dns).1 ≠ .ok true ∧ (call.serve dns).2.records = dns.records) ∨
    ((call.serve dns).1 = .ok true ∧ ∃ type, addressType call.address = .ok type ∧ JudgedSafe dns.records call.name type ∧
      applyChanges call.action dns.records call.name type (.single call.address) heritageRecord =
        some (call.serve dns).2.records) := by
  have served : call.serve dns = attempt (changeDNSRecord call.action call.name call.address) dns := by
    rcases call with ⟨_ | _, _, _⟩ <;> rfl
  have ends := ends_changeDNSRecord dns call.name call.action call.address
  rw [served, attempt]
  unfold Ends at ends
  cases ran : changeDNSRecord call.action call.name call.address dns with
  | error thrown after =>
    rw [ran] at ends
    exact .inl ⟨by simp, ends⟩
  | ok result after =>
    rw [ran] at ends
    cases result with
    | false => exact .inl ⟨by simp, ends⟩
    | true => exact .inr ⟨rfl, ends⟩

section Changes
variable {records changed : RecordSets} {name other : String} {type kind : RRType} {main : RecordSet}

theorem txt_ne (guessed : type = .A ∨ type = .AAAA) : type ≠ .TXT := by
  rcases guessed with rfl | rfl <;> decide

/-- Setting a record changes the record set of its type and the text of the name. -/
theorem lookup_upserted (set : applyChanges .upsert records name type main heritageRecord = some changed) :
    changed.lookup (other, kind) = if other = name ∧ kind = .TXT then some heritageRecord
      else if other = name ∧ kind = type then some main else records.lookup (other, kind) := by
  cases set
  rw [FiniteMap.lookup_insert, FiniteMap.lookup_insert]
  simp only [Prod.mk.injEq]

/-- What a removal erases was there exactly as it was set. -/
theorem deleted_held (plain : type ≠ .TXT) (removed : applyChanges .delete records name type main heritageRecord = some changed) :
    records.lookup (name, type) = some main ∧ records.lookup (name, .TXT) = some heritageRecord ∧
      changed = AList.erase (name, .TXT) (AList.erase (name, type) records) := by
  unfold applyChanges applyChange at removed
  by_cases held : records.lookup (name, type) = some main
  · rw [if_pos held] at removed
    have kept : (AList.erase (name, type) records).lookup (name, .TXT) = records.lookup (name, .TXT) := by
      rw [FiniteMap.lookup_erase, if_neg fun same => plain (congrArg Prod.snd same).symm]
    by_cases tagged : (AList.erase (name, type) records).lookup (name, .TXT) = some heritageRecord
    · have done : some (AList.erase (name, .TXT) (AList.erase (name, type) records)) = some changed :=
        (if_pos tagged).symm.trans removed
      exact ⟨held, kept.symm.trans tagged, (Option.some.inj done).symm⟩
    · have failed : none = some changed := (if_neg tagged).symm.trans removed
      cases failed
  · rw [if_neg held] at removed
    cases removed

private theorem lookup_deleted (plain : type ≠ .TXT) (removed : applyChanges .delete records name type main heritageRecord = some changed) :
    changed.lookup (other, kind) = if other = name ∧ (kind = .TXT ∨ kind = type) then none else records.lookup (other, kind) := by
  rw [(deleted_held plain removed).2.2, FiniteMap.lookup_erase, FiniteMap.lookup_erase]
  simp only [Prod.mk.injEq]
  grind

theorem tagged_of_heritage (held : records.lookup (name, .TXT) = some heritageRecord) : Tagged records name := by
  refine ⟨"\"" ++ heritageTag ++ "\"", ?_, by decide +kernel⟩
  rw [recordData, held]
  exact .head _

private theorem tagged_congr (same : changed.lookup (name, .TXT) = records.lookup (name, .TXT)) :
    Tagged changed name ↔ Tagged records name := by
  rw [Tagged, Tagged, recordData, recordData, same]

end Changes

/-- A record set that exists at a name without the tag, or has a type that is never touched. -/
structure Foreign (key : String × RRType) (set : RecordSet) (records : RecordSets) : Prop where
  held : records.lookup key = some set
  free : ¬ Tagged records key.1 ∨ key.2 ≠ .A ∧ key.2 ≠ .AAAA ∧ key.2 ≠ .TXT

/-- An address record that the manipulator has made. -/
structure Made (name : String) (type : RRType) (records : RecordSets) : Prop where
  held : records.lookup (name, type) ≠ none
  tagged : Tagged records name

private theorem other_of_ne {type kind : RRType} (first : type = .A ∨ type = .AAAA) (second : kind = .A ∨ kind = .AAAA)
    (different : type ≠ kind) : kind = otherAddressType type := by
  rcases first with rfl | rfl <;> rcases second with rfl | rfl <;> simp_all [otherAddressType]

/-- Only record sets of the name of a call can change. -/
theorem lookup_applied {action : ChangeAction} {records changed : RecordSets} {name other : String} {type kind : RRType}
    {main : RecordSet} (plain : type ≠ .TXT)
    (applied : applyChanges action records name type main heritageRecord = some changed)
    (apart : other ≠ name ∨ kind ≠ .TXT ∧ kind ≠ type) : changed.lookup (other, kind) = records.lookup (other, kind) := by
  have free : ¬ (other = name ∧ (kind = .TXT ∨ kind = type)) := by tauto
  cases action with
  | upsert =>
    rw [lookup_upserted applied, if_neg (fun both => free ⟨both.1, .inl both.2⟩),
      if_neg (fun both => free ⟨both.1, .inr both.2⟩)]
  | delete => rw [lookup_deleted plain applied, if_neg free]

/-- Record sets of others are left alone by a call that is separate from them. -/
theorem Foreign.served {key : String × RRType} {set : RecordSet} {dns : DNS} (foreign : Foreign key set dns.records)
    (call : DNSCall) (separate : call.Separate dns) : Foreign key set (call.serve dns).2.records := by
  rcases serve_cases call dns with ⟨-, same⟩ | ⟨-, type, guessed, judged, applied⟩
  · rw [same]
    exact foreign
  have address := addressType_cases guessed
  have plain := txt_ne address
  have apart := separate type guessed
  obtain ⟨name, kind⟩ := key
  by_cases here : name = call.name
  · -- At the name itself only types that are never touched can be foreign.
    have special : kind ≠ .A ∧ kind ≠ .AAAA ∧ kind ≠ .TXT := by
      rcases foreign.free with untagged | special
      · cases action : call.action with
        | upsert =>
          subst here
          have absent := judged.resolve_right untagged
          obtain ⟨text, other⟩ := apart.1 action untagged absent
          have held := foreign.held
          rcases address with rfl | rfl
          · exact ⟨by grind, by grind [otherAddressType], by grind⟩
          · exact ⟨by grind [otherAddressType], by grind, by grind⟩
        | delete =>
          rw [action] at applied
          have tagged := tagged_of_heritage (deleted_held plain applied).2.1
          exact absurd (here ▸ tagged) untagged
      · exact special
    have other : kind ≠ .TXT ∧ kind ≠ type := ⟨special.2.2, by rcases address with rfl | rfl; exacts [special.1, special.2.1]⟩
    exact ⟨(lookup_applied plain applied (.inr other)).trans foreign.held, .inr special⟩
  · refine ⟨(lookup_applied plain applied (.inl here)).trans foreign.held, foreign.free.imp_left fun untagged => ?_⟩
    rw [tagged_congr (lookup_applied plain applied (.inl here))]
    exact untagged

/-- An address record that has been made is kept manageable by a call that does not remove it. -/
theorem Made.served {name : String} {type : RRType} {dns : DNS} (made : Made name type dns.records)
    (address : type = .A ∨ type = .AAAA) (call : DNSCall) (separate : call.Separate dns)
    (kept : call.action = .delete → call.name = name → addressType call.address = .ok type → (call.serve dns).1 ≠ .ok true) :
    Made name type (call.serve dns).2.records := by
  rcases serve_cases call dns with ⟨-, same⟩ | ⟨done, kind, guessed, judged, applied⟩
  · rw [same]
    exact made
  have other := addressType_cases guessed
  have plain := txt_ne other
  by_cases here : name = call.name
  · cases action : call.action with
    | upsert =>
      rw [action] at applied
      refine ⟨?_, tagged_of_heritage ?_⟩
      · rw [lookup_upserted applied]
        split
        · exact Option.some_ne_none _
        · split
          · exact Option.some_ne_none _
          · exact made.held
      · rw [lookup_upserted applied, if_pos ⟨here, rfl⟩]
    | delete =>
      -- A record of the other type keeps the tag from being removed.
      have apart := separate kind guessed
      rw [action] at applied
      have different : kind ≠ type := by
        rintro rfl
        exact kept action here.symm guessed done
      have removed := (deleted_held plain applied).1
      have alone := apart.2 action (here ▸ made.tagged) (by rw [removed]; exact Option.some_ne_none _)
      rw [← other_of_ne other address different, ← here] at alone
      exact absurd alone made.held
  · refine ⟨?_, (tagged_congr (lookup_applied plain applied (.inl here))).mpr made.tagged⟩
    rw [lookup_applied plain applied (.inl here)]
    exact made.held

/-- Setting a record makes it one that can be managed. -/
theorem made_of_set {call : DNSCall} {dns : DNS} {type : RRType} (action : call.action = .upsert)
    (guessed : addressType call.address = .ok type) (done : (call.serve dns).1 = .ok true) :
    Made call.name type (call.serve dns).2.records := by
  rcases serve_cases call dns with ⟨failed, -⟩ | ⟨-, kind, same, -, applied⟩
  · exact absurd done failed
  obtain rfl : type = kind := Except.ok.inj (guessed.symm.trans same)
  rw [action] at applied
  have plain := txt_ne (addressType_cases guessed)
  refine ⟨?_, tagged_of_heritage ?_⟩
  · rw [lookup_upserted applied, if_neg (fun both => plain both.2), if_pos ⟨rfl, rfl⟩]
    exact Option.some_ne_none _
  · rw [lookup_upserted applied, if_pos ⟨rfl, rfl⟩]

/-- At the end of some calls, whatever existed without the tag before any of them is as it
was, and what was set and not removed since is judged safe to modify. -/
structure ZoneKept (start : DNS) (calls : List DNSCall) : Prop where
  untouched : ∀ earlier later key set, calls = earlier ++ later →
    (servedState DNSCall.serve earlier start).records.lookup key = some set →
    ¬ Tagged (servedState DNSCall.serve earlier start).records key.1 →
      (servedState DNSCall.serve calls start).records.lookup key = some set
  manageable : ∀ earlier call later type, calls = earlier ++ call :: later → call.action = .upsert →
    addressType call.address = .ok type → (call.serve (servedState DNSCall.serve earlier start)).1 = .ok true →
    (∀ served ∈ serveAll DNSCall.serve later (servedState DNSCall.serve (earlier ++ [call]) start),
      served.operation.action = .delete → served.operation.name = call.name →
      addressType served.operation.address = .ok type → served.result ≠ .ok true) →
      Yields (safeToModifyDNS call.name type) (servedState DNSCall.serve calls start) fun safe _ => safe = true

/-- Calls that are all separate keep the zone as it should be. -/
theorem servedCalls_zoneKept (start : DNS) (calls : List DNSCall)
    (separate : ∀ served ∈ serveAll DNSCall.serve calls start, served.operation.Separate served.before) :
    ZoneKept start calls where
  untouched earlier later key set parts held untagged := by
    subst parts
    have foreign : Foreign key set (servedState DNSCall.serve earlier start).records := ⟨held, .inl untagged⟩
    rw [serveAll_append] at separate
    rw [servedState_append]
    exact (servedState_keeps (fun dns => Foreign key set dns.records) DNSCall.Separate
      (fun call dns foreign apart => foreign.served call apart) foreign
      fun served member => separate served (List.mem_append_right _ member)).held
  manageable earlier call later type parts action guessed done kept := by
    subst parts
    rw [servedState_append, servedState_cons, servedState_nil] at kept
    have final := servedState_keeps (fun dns : DNS => Made call.name type dns.records)
      (fun (operation : DNSCall) (dns : DNS) => operation.Separate dns ∧ (operation.action = .delete →
        operation.name = call.name → addressType operation.address = .ok type → (operation.serve dns).1 ≠ .ok true))
      (fun operation dns made met => made.served (addressType_cases guessed) operation met.1 met.2)
      (made_of_set action guessed done) fun served member => by
        refine ⟨separate served ?_, result_of_mem member ▸ kept served member⟩
        rw [serveAll_append]
        exact List.mem_append_right _ (.tail _ member)
    rw [servedState_append, servedState_cons]
    refine (ends_safeToModifyDNS _ call.name type).yields.mono ?_
    rintro safe after ⟨-, judged⟩
    exact judged.mpr (.inr final.tagged)

/-- A zone with a mail server of someone else. -/
def mailZone : DNS where
  hostedZones := (∅ : FiniteMap String String).insert "slateci.net." "Z1"
  records := ((∅ : RecordSets).insert ("mail.slateci.net", .A) (.single "192.0.2.1")).insert
    ("mail.slateci.net", .other "MX") (.single "10 mail.slateci.net")

/-- Addresses of both types are set for a cluster. The record of the mail server is refused. -/
theorem servedCalls_zoneKept_mail : ZoneKept mailZone
    [⟨.upsert, "*.web.slateci.net", "192.0.2.7"⟩, ⟨.upsert, "*.web.slateci.net", "2001:db8::7"⟩,
      ⟨.upsert, "mail.slateci.net", "192.0.2.7"⟩, ⟨.delete, "mail.slateci.net", "192.0.2.1"⟩] :=
  servedCalls_zoneKept mailZone _ (by decide +kernel)

/-- A text record of someone else is replaced when the name gets its first address. And
when one of two addresses is removed, the other one cannot be managed any more. -/
theorem servedCalls_zoneLost :
    ¬ ZoneKept { mailZone with
        records := (∅ : RecordSets).insert ("spf.slateci.net", .TXT) (.single "\"v=spf1 -all\"") }
      [⟨.upsert, "spf.slateci.net", "192.0.2.7"⟩] ∧
    ¬ ZoneKept mailZone [⟨.upsert, "*.web.slateci.net", "192.0.2.7"⟩, ⟨.upsert, "*.web.slateci.net", "2001:db8::7"⟩,
      ⟨.delete, "*.web.slateci.net", "192.0.2.7"⟩] := by
  refine ⟨fun kept => ?_, fun kept => ?_⟩
  · have same := kept.untouched [] _ ("spf.slateci.net", .TXT) (.single "\"v=spf1 -all\"") rfl rfl (by decide +kernel)
    exact absurd same (by decide +kernel)
  · have safe := kept.manageable [⟨.upsert, "*.web.slateci.net", "192.0.2.7"⟩]
      ⟨.upsert, "*.web.slateci.net", "2001:db8::7"⟩ [⟨.delete, "*.web.slateci.net", "192.0.2.7"⟩] .AAAA rfl rfl
      (by decide +kernel) (by decide +kernel) (by decide +kernel)
    have wrong : false = true := safe.of_ok rfl
    cases wrong

end Slate
