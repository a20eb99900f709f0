import Slate.ClusterNodes
import Slate.Library.Programs
import Slate.Proofs.Quantities

/-! When the totals that are reported for a cluster are those of its nodes. -/

namespace Slate
open Library

def leadingNumber (text : List Char) : Nat := Nat.ofDigitChars 10 (text.takeWhile Char.isDigit) 0

def coresOf (text : List Char) : Option ℚ :=
  if text.takeWhile Char.isDigit = [] then none
  else match text.dropWhile Char.isDigit with
    | [] => some (leadingNumber text)
    | ['m'] => some (leadingNumber text / 1000)
    | _ => none

def memoryScales : List (List Char × Nat) := [
  ([], 1), (['k'], 1000), (['M'], 1000000), (['G'], 1000000000), (['T'], 1000000000000),
  (['P'], 1000000000000000), (['E'], 1000000000000000000),
  (['K', 'i'], 1024), (['M', 'i'], 1048576), (['G', 'i'], 1073741824), (['T', 'i'], 1099511627776),
  (['P', 'i'], 1125899906842624), (['E', 'i'], 1152921504606846976)]

def bytesOf (text : List Char) : Option Nat :=
  if text.takeWhile Char.isDigit = [] then none
  else (memoryScales.lookup (text.dropWhile Char.isDigit)).map (leadingNumber text * ·)

/-- What a cluster has on one of its nodes. -/
structure Listing where
  types : List String
  cpu : String
  memory : String
  cores : ℚ
  bytes : Nat
  cpuForm : coresOf cpu.toList = some cores
  memoryForm : bytesOf memory.toList = some bytes

def Texts (info : Json) : Prop :=
  info.isObject = true ∧ ∀ name found, info.member name = some found → ∃ text, found = .string text

structure ListedAddress (addr : Json) (type : String) : Prop where
  type_ : addr.member "type" = some (.string type)
  address : ∃ text, addr.member "address" = some (.string text)

structure ListedNode (node : Json) (listing : Listing) : Prop where
  name : ∃ metadata text, node.member "metadata" = some metadata ∧ metadata.member "name" = some (.string text)
  status : ∃ status, node.member "status" = some status ∧
    ((status.member "addresses" = none ∧ listing.types = []) ∨
      ∃ addresses, status.member "addresses" = some (.array addresses) ∧
        List.Forall₂ ListedAddress addresses listing.types) ∧
    (∃ allocatable, status.member "allocatable" = some allocatable ∧ Texts allocatable ∧
      allocatable.member "cpu" = some (.string listing.cpu) ∧
      allocatable.member "memory" = some (.string listing.memory)) ∧
    ∀ capacity, status.member "capacity" = some capacity → Texts capacity

private theorem stoi_cores_iff {text : List Char} {cores : ℚ} (form : coresOf text = some cores) :
    (∃ cpus : Int, stoi text = .ok cpus ∧ (cpus : ℚ) = cores) ↔
      leadingNumber text ≤ 2147483647 ∧ (text.dropWhile Char.isDigit = [] ∨ leadingNumber text = 0) := by
  rw [coresOf] at form
  split at form
  next => cases form
  next some_ =>
    have read : (∃ cpus : Int, stoi text = .ok cpus ∧ (cpus : ℚ) = cores) ↔
        leadingNumber text ≤ 2147483647 ∧ (leadingNumber text : ℚ) = cores := by
      rw [stoi_digits some_, ← leadingNumber]
      by_cases small : leadingNumber text ≤ 2147483647
      · have inside : ¬ intMax < (leadingNumber text : Int) := by
          unfold intMax
          omega
        rw [if_neg inside, and_iff_right small]
        constructor
        · rintro ⟨_, ⟨⟩, same⟩
          rwa [Int.cast_natCast] at same
        · intro same
          exact ⟨_, rfl, by rwa [Int.cast_natCast]⟩
      · have outside : intMax < (leadingNumber text : Int) := by
          unfold intMax
          omega
        rw [if_pos outside]
        refine iff_of_false ?_ (fun right => small right.1)
        rintro ⟨_, ⟨⟩, _⟩
    rw [read]
    refine and_congr_right fun _ => ?_
    split at form
    next whole =>
      cases form
      exact iff_of_true rfl (Or.inl whole)
    next milli =>
      cases form
      rw [milli]
      constructor
      · intro same
        have zero : (leadingNumber text : ℚ) = 0 := by linarith
        exact Or.inr (by exact_mod_cast zero)
      · rintro (⟨⟨⟩⟩ | zero)
        rw [zero]
        norm_num
    next => cases form

def readSuffixes : List (List Char) := [[], ['K', 'i'], ['M', 'i'], ['G', 'i'], ['T', 'i']]

private theorem memoryScales_read : ∀ entry ∈ memoryScales,
    (∀ c ∈ (entry.1.map Char.toLower).head?, c.isDigit = false) ∧ entry.2 ≠ 0 ∧
    (entry.1 ∈ readSuffixes ∧ Matched (entry.1.map Char.toLower) ∧
        (lookups.lookup (entry.1.map Char.toLower)).getD 1 = entry.2 ∨
      entry.1 ∉ readSuffixes ∧ entry.2 ≠ 1 ∧
        (Matched (entry.1.map Char.toLower) → (lookups.lookup (entry.1.map Char.toLower)).getD 1 = 1)) := by
  have table : ∀ entry ∈ memoryScales,
      (entry.1.map Char.toLower).head?.all (fun c => decide (c.isDigit = false)) ∧ entry.2 ≠ 0 ∧
      (entry.1 ∈ readSuffixes ∧ Matched (entry.1.map Char.toLower) ∧
          (lookups.lookup (entry.1.map Char.toLower)).getD 1 = entry.2 ∨
        entry.1 ∉ readSuffixes ∧ entry.2 ≠ 1 ∧
          (Matched (entry.1.map Char.toLower) → (lookups.lookup (entry.1.map Char.toLower)).getD 1 = 1)) := by
    decide +kernel
  intro entry member
  exact ⟨head_of_all (table entry member).1, (table entry member).2⟩

private theorem parse_bytes_iff {text : List Char} {bytes : Nat} (form : bytesOf text = some bytes)
    (fits : (bytes : Int) ≤ longMax) :
    parseStringSuffix (String.ofList text) = .ok (bytes : Int) ↔
      leadingNumber text = 0 ∨ leadingNumber text ≤ 2147483647 ∧ text.dropWhile Char.isDigit ∈ readSuffixes := by
  rw [bytesOf] at form
  split at form
  next => cases form
  next some_ =>
    obtain ⟨scale, found, rfl⟩ := Option.map_eq_some_iff.mp form
    obtain ⟨l₁, l₂, same, _⟩ := List.lookup_eq_some_iff.mp found
    have entry : (text.dropWhile Char.isDigit, scale) ∈ memoryScales := by
      rw [same]
      simp
    obtain ⟨stops, nonzero, known⟩ := memoryScales_read _ entry
    have lower : (text.dropWhile Char.isDigit).map Char.toLower = lowerSuffix text := rfl
    simp only [lower] at stops nonzero known
    rw [parseStringSuffix_eq some_ stops, ← leadingNumber]
    generalize leadingNumber text = number at fits ⊢
    have large_iff : intMax < (number : Int) ↔ ¬ number ≤ 2147483647 := by
      unfold intMax
      omega
    rcases known with ⟨read, matched, scaled⟩ | ⟨unread, other, unscaled⟩
    · have product : ((number * scale : Nat) : Int) = number * scale := Nat.cast_mul _ _
      rw [product] at fits
      rw [if_pos matched, scaled, if_pos fits, product]
      by_cases small : number ≤ 2147483647
      · rw [if_neg (large_iff.not.mpr (not_not.mpr small))]
        exact iff_of_true rfl (Or.inr ⟨small, read⟩)
      · rw [if_pos (large_iff.mpr small)]
        refine iff_of_false ?_ ?_
        · nofun
        · omega
    · rw [or_iff_left (fun right => unread right.2)]
      by_cases matched : Matched (lowerSuffix text)
      · rw [if_pos matched, unscaled matched, mul_one]
        by_cases zero : number = 0
        · subst zero
          rw [Nat.zero_mul]
          exact iff_of_true (by decide) rfl
        · refine iff_of_false ?_ zero
          have apart : (number : Int) ≠ ((number * scale : Nat) : Int) := by
            intro same
            have same : number * 1 = number * scale := by
              rw [Nat.mul_one]
              exact_mod_cast same
            exact other (Nat.eq_of_mul_eq_mul_left (Nat.pos_of_ne_zero zero) same).symm
          split
          next => nofun
          next =>
            split
            next =>
              intro same
              exact apart (Except.ok.inj same)
            next => nofun
      · rw [if_neg matched]
        constructor
        · intro same
          have zero : number * scale = 0 := by exact_mod_cast (Except.ok.inj same).symm
          exact (Nat.mul_eq_zero.mp zero).resolve_right nonzero
        · rintro rfl
          rw [Nat.zero_mul]
          rfl

def Totals.add (listing : Listing) (totals : Totals) : Except Fault Totals := do
  (← totals.addCpus listing.cpu).addMemory listing.memory

def isReported (type : String) : Bool := type = "InternalIP" ∨ type = "ExternalIP"

def Totals.addListed (totals : Totals) (listing : Listing) : Except Fault Totals :=
  Totals.nodeDone <$> (listing.types.filter isReported).foldlM (fun totals _ => totals.add listing) totals

theorem asserted_hasMember {value : Json} {name : String} (isObject : value.isObject = true) :
    asserted (value.hasMember name) = .ok (value.member name).isSome := by
  rw [Json.hasMember_object isObject]
  rfl

theorem textOf_member {value : Json} {name text : String} (there : value.member name = some (.string text)) :
    textOf value name = .ok text := by
  rw [textOf, there]
  rfl

/-- Copying texts does not fail. -/
theorem copyText_ok {info : Json} (texts : Texts info) (address : Members) (names : String × String) :
    ∃ copied, copyText info address names = .ok copied := by
  rw [copyText, asserted_hasMember texts.1]
  cases there : info.member names.1 with
  | none => exact ⟨_, rfl⟩
  | some found =>
    obtain ⟨text, rfl⟩ := texts.2 _ _ there
    refine ⟨address ++ [(names.2, .string text)], ?_⟩
    rw [textOf_member there]
    rfl

private theorem copyTexts_ok {info : Json} (texts : Texts info) (names : List (String × String)) :
    ∀ address, ∃ copied, names.foldlM (copyText info) address = .ok copied := by
  induction names with
  | nil => exact fun address => ⟨address, rfl⟩
  | cons name names ih =>
    intro address
    obtain ⟨copied, ran⟩ := copyText_ok texts address name
    obtain ⟨final, rest⟩ := ih copied
    refine ⟨final, ?_⟩
    rw [List.foldlM_cons, ran]
    exact rest

private theorem addText_member {info : Json} {name text : String} (there : info.member name = some (.string text))
    (add : Totals → String → Except Fault Totals) (totals : Totals) : addText info name add totals = add totals text := by
  rw [addText, Json.hasMember_of_member there, textOf_member there]
  rfl

private theorem allocatableValues_adds {info : Json} {listing : Listing} (texts : Texts info)
    (cpu : info.member "cpu" = some (.string listing.cpu)) (memory : info.member "memory" = some (.string listing.memory))
    (address : Members) :
    ∃ copied, ∀ totals, allocatableValues info address totals = (fun after => (copied, after)) <$> totals.add listing := by
  obtain ⟨first, ranFirst⟩ := copyText_ok texts address ("cpu", "allocatableCPU")
  obtain ⟨second, ranSecond⟩ := copyText_ok texts first ("ephemeral-storage", "allocatableStorage")
  obtain ⟨third, ranThird⟩ := copyText_ok texts second ("hugepages-1Gi", "allocatableHugepages1Gi")
  obtain ⟨fourth, ranFourth⟩ := copyText_ok texts third ("hugepages-2Mi", "allocatableHugepages2Mi")
  obtain ⟨fifth, ranFifth⟩ := copyText_ok texts fourth ("memory", "allocatableMem")
  obtain ⟨sixth, ranSixth⟩ := copyText_ok texts fifth ("pods", "allocatablePods")
  refine ⟨sixth, ?_⟩
  intro totals
  rw [allocatableValues, ranFirst]
  change (addText info "cpu" Totals.addCpus totals >>= _) = _
  rw [addText_member cpu, Totals.add]
  cases totals.addCpus listing.cpu with
  | error => rfl
  | ok between =>
    change (copyText info first _ >>= _) = _
    rw [ranSecond]
    change (copyText info second _ >>= _) = _
    rw [ranThird]
    change (copyText info third _ >>= _) = _
    rw [ranFourth]
    change (copyText info fourth _ >>= _) = _
    rw [ranFifth]
    change (addText info "memory" Totals.addMemory between >>= _) = (_ <$> between.addMemory listing.memory)
    rw [addText_member memory]
    cases between.addMemory listing.memory with
    | error => rfl
    | ok after =>
      change (copyText info fifth _ >>= _) = _
      rw [ranSixth]
      rfl

private theorem capacityOf_ok {status : Json} (isObject : status.isObject = true)
    (texts : ∀ capacity, status.member "capacity" = some capacity → Texts capacity) (address : Members) :
    ∃ copied, capacityOf status address = .ok copied := by
  rw [capacityOf, asserted_hasMember isObject]
  cases there : status.member "capacity" with
  | none => exact ⟨address, rfl⟩
  | some capacity =>
    obtain ⟨copied, ran⟩ := copyTexts_ok (texts capacity there)
      [("cpu", "capacityCPU"), ("ephemeral-storage", "capacityStorage"), ("hugepages-1Gi", "capacityHugepages1Gi"),
        ("hugepages-2Mi", "capacityHugepages2Mi"), ("memory", "capacityMem"), ("pods", "capacityPods")] address
    refine ⟨copied, ?_⟩
    exact ran

structure Readable (status : Json) (listing : Listing) : Prop where
  allocatable : ∃ allocatable, status.member "allocatable" = some allocatable ∧ Texts allocatable ∧
    allocatable.member "cpu" = some (.string listing.cpu) ∧
    allocatable.member "memory" = some (.string listing.memory)
  capacity : ∀ capacity, status.member "capacity" = some capacity → Texts capacity

/-- The totals after one address. -/
def Totals.addAddress (listing : Listing) (totals : Totals) (type : String) : Except Fault Totals :=
  if isReported type then totals.add listing else .ok totals

private theorem collectAddress_adds {status addr : Json} {listing : Listing} {type : String}
    (readable : Readable status listing) (listed : ListedAddress addr type) (infos : List Json) (totals : Totals) :
    Prod.snd <$> collectAddress status (infos, totals) addr = totals.addAddress listing type := by
  obtain ⟨text, address⟩ := listed.address
  rw [collectAddress, textOf_member listed.type_, Totals.addAddress, isReported]
  by_cases reported : type = "InternalIP" ∨ type = "ExternalIP"
  · obtain ⟨allocatable, there, texts, cpu, memory⟩ := readable.allocatable
    obtain ⟨copied, adds⟩ := allocatableValues_adds texts cpu memory
      [("addressType", .string type), ("address", .string text)]
    have values : ∀ address, allocatableOf status address totals = allocatableValues allocatable address totals := by
      intro address
      rw [allocatableOf, Json.hasMember_of_member there, there]
      rfl
    obtain ⟨final, ran⟩ := capacityOf_ok (Json.isObject_of_member there) readable.capacity copied
    rw [decide_eq_true reported, if_pos rfl]
    change Prod.snd <$> (if type = "InternalIP" ∨ type = "ExternalIP" then _ else _) = _
    rw [if_pos reported, textOf_member address]
    change Prod.snd <$> (allocatableOf status _ totals >>= _) = _
    rw [values, adds]
    cases totals.add listing with
    | error => rfl
    | ok after =>
      change Prod.snd <$> (capacityOf status copied >>= _) = _
      rw [ran]
      rfl
  · rw [decide_eq_false reported]
    change Prod.snd <$> (if type = "InternalIP" ∨ type = "ExternalIP" then _ else _) = _
    rw [if_neg reported]
    rfl

/-- A loop over a pair of which one part is left out. -/
theorem foldlM_second {α τ ι κ : Type} {related : ι → κ → Prop} {step : α × τ → ι → Except Fault (α × τ)}
    {count : τ → κ → Except Fault τ}
    (same : ∀ item key, related item key → ∀ first second, Prod.snd <$> step (first, second) item = count second key)
    {items : List ι} {keys : List κ} (all : List.Forall₂ related items keys) :
    ∀ first second, Prod.snd <$> items.foldlM step (first, second) = keys.foldlM count second := by
  induction all with
  | nil => exact fun _ _ => rfl
  | @cons item key items keys here rest ih =>
    intro first second
    rw [List.foldlM_cons, List.foldlM_cons, ← same item key here first second]
    cases step (first, second) item with
    | error => rfl
    | ok next => exact ih next.1 next.2

private theorem hasInner_of {node inside : Json} {outer inner : String} (there : node.member outer = some inside)
    (isObject : inside.isObject = true) : hasInner node outer inner = .ok (inside.member inner).isSome := by
  rw [hasInner, Json.hasMember_of_member there, there]
  exact asserted_hasMember isObject

/-- A node adds to the totals for each of its addresses that is looked at. -/
theorem collectNode_adds {node : Json} {listing : Listing} (listed : ListedNode node listing) (infos : List Json)
    (totals : Totals) : Prod.snd <$> collectNode (infos, totals) node = totals.addListed listing := by
  obtain ⟨metadata, name, thereMetadata, thereName⟩ := listed.name
  obtain ⟨status, thereStatus, addresses, ⟨allocatable, thereAllocatable, values⟩, capacity⟩ := listed.status
  have readable : Readable status listing := ⟨⟨allocatable, thereAllocatable, values⟩, capacity⟩
  have isObject := Json.isObject_of_member thereAllocatable
  have named := @hasInner_of node metadata "metadata" "name" thereMetadata (Json.isObject_of_member thereName)
  rw [collectNode, named, thereName]
  change Prod.snd <$> (collectAddresses node infos totals >>= _) = _
  rw [collectAddresses, thereMetadata]
  change Prod.snd <$> ((textOf metadata "name" >>= _) >>= _) = _
  rw [textOf_member thereName]
  change Prod.snd <$> ((hasInner node "status" "addresses" >>= _) >>= _) = _
  rw [hasInner_of thereStatus isObject, Totals.addListed]
  have reported : (listing.types.filter isReported).foldlM (fun totals _ => totals.add listing) totals =
      listing.types.foldlM (Totals.addAddress listing) totals := List.foldlM_filter
  rcases addresses with ⟨none_, empty⟩ | ⟨all, there, matched⟩
  · rw [none_, empty]
    rfl
  · have adds := foldlM_second (fun addr type listed => collectAddress_adds readable listed) matched [] totals
    rw [there, thereStatus, reported, ← adds]
    change Prod.snd <$> ((asserted (status.member "addresses") >>= _) >>= _) = _
    rw [there]
    change Prod.snd <$> ((all.foldlM (collectAddress status) ([], totals) >>= _) >>= _) = _
    cases all.foldlM (collectAddress status) ([], totals) with
    | error => rfl
    | ok => rfl

private theorem checkedSum_ok {max total added sum : Int} (ran : checkedSum max total added = .ok sum) :
    sum = total + added ∧ sum ≤ max := by
  rw [checkedSum] at ran
  split at ran
  next inside =>
    cases ran
    exact ⟨rfl, inside.2⟩
  next => cases ran

def Totals.plus (totals : Totals) (cpus memories : Int) : Totals :=
  { totals with
    totalCpus := totals.totalCpus + cpus
    totalMemory := totals.totalMemory + memories
    cpus := totals.cpus ++ [cpus]
    memories := totals.memories ++ [memories] }

private theorem add_ok {listing : Listing} {totals after : Totals} (ran : totals.add listing = .ok after) :
    ∃ cpus memories, stoi listing.cpu.toList = .ok cpus ∧ parseStringSuffix listing.memory = .ok memories ∧
      totals.totalCpus + cpus ≤ intMax ∧ after = totals.plus cpus memories := by
  obtain ⟨between, first, second⟩ := bind_ok ran
  obtain ⟨cpus, read, rest⟩ := bind_ok first
  obtain ⟨totalCpus, summed, done⟩ := bind_ok rest
  obtain ⟨memories, parsed, rest⟩ := bind_ok second
  obtain ⟨totalMemory, summedMemory, doneMemory⟩ := bind_ok rest
  obtain ⟨rfl, small⟩ := checkedSum_ok summed
  cases done
  obtain ⟨rfl, _⟩ := checkedSum_ok summedMemory
  cases doneMemory
  exact ⟨cpus, memories, read, parsed, small, rfl⟩

/-- A node has added its quantities so many times. -/
structure Added (listing : Listing) (count : Nat) (cpus memories : List Int) : Prop where
  cpuTimes : cpus.length = count
  memoryTimes : memories.length = count
  cpu : ∀ added ∈ cpus, stoi listing.cpu.toList = .ok added
  memory : ∀ added ∈ memories, parseStringSuffix listing.memory = .ok added

/-- The totals have grown by what was added, and the sum of processors fits. -/
structure Grown (totals after : Totals) (cpus memories : List Int) : Prop where
  totalCpus : after.totalCpus = totals.totalCpus + cpus.sum
  totalMemory : after.totalMemory = totals.totalMemory + memories.sum
  inside : totals.totalCpus ≤ intMax → after.totalCpus ≤ intMax

private theorem addresses_ok {listing : Listing} {α : Type} (addresses : List α) : ∀ {totals after : Totals},
    addresses.foldlM (fun totals _ => totals.add listing) totals = .ok after →
    ∃ cpus memories, Added listing addresses.length cpus memories ∧ Grown totals after cpus memories ∧
      after.cpus = totals.cpus ++ cpus ∧ after.memories = totals.memories ++ memories ∧
      after.counted = totals.counted := by
  induction addresses with
  | nil =>
    intro totals after ran
    cases ran
    refine ⟨[], [], ⟨rfl, rfl, ?_, ?_⟩, ⟨?_, ?_, id⟩, (List.append_nil _).symm, (List.append_nil _).symm, rfl⟩
    · nofun
    · nofun
    · rw [List.sum_nil, add_zero]
    · rw [List.sum_nil, add_zero]
  | cons address addresses ih =>
    intro totals after ran
    rw [List.foldlM_cons] at ran
    obtain ⟨between, first, rest⟩ := bind_ok ran
    obtain ⟨cpu, memory, read, parsed, small, rfl⟩ := add_ok first
    obtain ⟨cpus, memories, added, grown, nowCpus, nowMemories, counted⟩ := ih rest
    refine ⟨cpu :: cpus, memory :: memories, ⟨?_, ?_, ?_, ?_⟩, ⟨?_, ?_, ?_⟩, ?_, ?_, counted⟩
    · rw [List.length_cons, List.length_cons, added.cpuTimes]
    · rw [List.length_cons, List.length_cons, added.memoryTimes]
    · intro value member
      rcases List.mem_cons.mp member with rfl | member
      · exact read
      · exact added.cpu value member
    · intro value member
      rcases List.mem_cons.mp member with rfl | member
      · exact parsed
      · exact added.memory value member
    · rw [grown.totalCpus, List.sum_cons, Totals.plus, add_assoc]
    · rw [grown.totalMemory, List.sum_cons, Totals.plus, add_assoc]
    · exact fun _ => grown.inside small
    · rw [nowCpus, Totals.plus, List.append_assoc, List.singleton_append]
    · rw [nowMemories, Totals.plus, List.append_assoc, List.singleton_append]

def Listing.times (listing : Listing) : Nat := (listing.types.filter isReported).length

private theorem nodes_ok : ∀ (listed : List Listing) {totals after : Totals}, totals.cpus = [] → totals.memories = [] →
    listed.foldlM Totals.addListed totals = .ok after →
    ∃ counted, after.counted = totals.counted ++ counted ∧
      List.Forall₂ (fun added listing => Added listing listing.times added.1 added.2) counted listed ∧
      Grown totals after (counted.flatMap Prod.fst) (counted.flatMap Prod.snd) := by
  intro listed
  induction listed with
  | nil =>
    intro totals after _ _ ran
    cases ran
    refine ⟨[], (List.append_nil _).symm, .nil, ⟨?_, ?_, id⟩⟩
    · exact (add_zero _).symm
    · exact (add_zero _).symm
  | cons listing listed ih =>
    intro totals after noCpus noMemories ran
    rw [List.foldlM_cons] at ran
    obtain ⟨between, first, rest⟩ := bind_ok ran
    rw [Totals.addListed] at first
    obtain ⟨summed, ranAddresses, done⟩ := bind_ok (first : (_ >>= fun totals => pure (Totals.nodeDone totals)) = _)
    obtain ⟨cpus, memories, added, grown, nowCpus, nowMemories, same⟩ := addresses_ok _ ranAddresses
    cases done
    obtain ⟨counted, all, forall_, grownRest⟩ := ih rfl rfl rest
    rw [noCpus, List.nil_append] at nowCpus
    rw [noMemories, List.nil_append] at nowMemories
    refine ⟨(cpus, memories) :: counted, ?_, .cons added forall_, ⟨?_, ?_, ?_⟩⟩
    · rw [all, Totals.nodeDone, same, nowCpus, nowMemories, List.append_assoc, List.singleton_append]
    · rw [grownRest.totalCpus, List.flatMap_cons, List.sum_append, Totals.nodeDone, grown.totalCpus, add_assoc]
    · rw [grownRest.totalMemory, List.flatMap_cons, List.sum_append, Totals.nodeDone, grown.totalMemory, add_assoc]
    · exact fun small => grownRest.inside (grown.inside small)

/-- A node has one address that is looked at, and quantities that are read as what they stand for. -/
structure Listing.Plain (listing : Listing) : Prop where
  once : listing.times = 1
  cpuFits : leadingNumber listing.cpu.toList ≤ 2147483647
  whole : listing.cpu.toList.dropWhile Char.isDigit = [] ∨ leadingNumber listing.cpu.toList = 0
  memoryRead : leadingNumber listing.memory.toList = 0 ∨ leadingNumber listing.memory.toList ≤ 2147483647 ∧
    listing.memory.toList.dropWhile Char.isDigit ∈ readSuffixes

/-- What was added for a node is what it has, and nothing else. -/
def CountedOnce (added : List Int × List Int) (listing : Listing) : Prop :=
  ∃ cpus : Int, added = ([cpus], [(listing.bytes : Int)]) ∧ (cpus : ℚ) = listing.cores

theorem cores_nonneg {text : List Char} {cores : ℚ} (form : coresOf text = some cores) : 0 ≤ cores := by
  have number : (0 : ℚ) ≤ leadingNumber text := Nat.cast_nonneg _
  rw [coresOf] at form
  split at form
  next => cases form
  next =>
    split at form
    next =>
      cases form
      exact number
    next =>
      cases form
      linarith
    next => cases form

private theorem sums_of_counted {counted : List (List Int × List Int)} {listed : List Listing}
    (once : List.Forall₂ CountedOnce counted listed) :
    (((counted.flatMap Prod.fst).sum : Int) : ℚ) = (listed.map Listing.cores).sum ∧
      (counted.flatMap Prod.snd).sum = ((listed.map Listing.bytes).sum : Nat) := by
  induction once with
  | nil => exact ⟨Int.cast_zero, rfl⟩
  | cons here _ ih =>
    obtain ⟨cpus, rfl, same⟩ := here
    rw [List.flatMap_cons, List.flatMap_cons, List.sum_append, List.sum_append, List.sum_singleton,
      List.sum_singleton, List.map_cons, List.map_cons, List.sum_cons, List.sum_cons, ih.2]
    refine ⟨?_, (Nat.cast_add _ _).symm⟩
    rw [Int.cast_add, ih.1, same]

private theorem plain_of_counted {listing : Listing} {added : List Int × List Int}
    (was : Added listing listing.times added.1 added.2) (once : CountedOnce added listing)
    (fits : (listing.bytes : Int) ≤ longMax) : listing.Plain := by
  obtain ⟨cpus, rfl, same⟩ := once
  have read := was.cpu cpus List.mem_cons_self
  have parsed := was.memory listing.bytes List.mem_cons_self
  rw [← String.ofList_toList (s := listing.memory)] at parsed
  obtain ⟨cpuFits, whole⟩ := (stoi_cores_iff listing.cpuForm).mp ⟨cpus, read, same⟩
  exact ⟨was.cpuTimes.symm, cpuFits, whole, (parse_bytes_iff listing.memoryForm fits).mp parsed⟩

private theorem checkedSum_small {max total added : Int} (nonneg : 0 ≤ total) (more : 0 ≤ added) (large : 0 ≤ max)
    (fits : total + added ≤ max) : checkedSum max total added = .ok (total + added) :=
  if_pos ⟨by omega, fits⟩

/-- A plain node adds what it has, if there is room. -/
theorem addListed_plain {listing : Listing} (plain : listing.Plain) {totals : Totals} (noCpus : totals.cpus = [])
    (noMemories : totals.memories = []) (someCpus : 0 ≤ totals.totalCpus) (someMemory : 0 ≤ totals.totalMemory)
    (cpusFit : (totals.totalCpus : ℚ) + listing.cores ≤ 2147483647)
    (memoryFits : totals.totalMemory + listing.bytes ≤ longMax) :
    ∃ cpus : Int, (cpus : ℚ) = listing.cores ∧ totals.addListed listing =
      .ok { totals with
        totalCpus := totals.totalCpus + cpus
        totalMemory := totals.totalMemory + listing.bytes
        counted := totals.counted ++ [([cpus], [(listing.bytes : Int)])] } := by
  obtain ⟨cpus, read, same⟩ := (stoi_cores_iff listing.cpuForm).mpr ⟨plain.cpuFits, plain.whole⟩
  have fits : (listing.bytes : Int) ≤ longMax := by omega
  have parsed := (parse_bytes_iff listing.memoryForm fits).mpr plain.memoryRead
  rw [String.ofList_toList] at parsed
  have nonneg : 0 ≤ cpus := by
    have cores := cores_nonneg listing.cpuForm
    rw [← same] at cores
    exact_mod_cast cores
  have room : totals.totalCpus + cpus ≤ intMax := by
    rw [← same] at cpusFit
    unfold intMax
    exact_mod_cast cpusFit
  have large : 0 ≤ longMax := by decide
  have added : totals.add listing = .ok (totals.plus cpus listing.bytes) := by
    rw [Totals.add, Totals.addCpus, read]
    change (checkedSum intMax totals.totalCpus cpus >>= _) >>= _ = _
    rw [checkedSum_small someCpus nonneg (by decide) room]
    change Totals.addMemory _ listing.memory = _
    rw [Totals.addMemory, parsed]
    change (checkedSum longMax totals.totalMemory listing.bytes >>= _) = _
    rw [checkedSum_small someMemory (Int.natCast_nonneg _) large memoryFits]
    rfl
  obtain ⟨address, only⟩ := List.length_eq_one_iff.mp plain.once
  refine ⟨cpus, same, ?_⟩
  rw [Totals.addListed, only, List.foldlM_cons, added]
  change Except.ok (Totals.nodeDone (totals.plus cpus listing.bytes)) = _
  rw [Totals.nodeDone, Totals.plus, noCpus, noMemories]
  rfl

private theorem nodes_plain : ∀ (listed : List Listing) {totals : Totals}, (∀ listing ∈ listed, listing.Plain) →
    totals.cpus = [] → totals.memories = [] → 0 ≤ totals.totalCpus → 0 ≤ totals.totalMemory →
    (totals.totalCpus : ℚ) + (listed.map Listing.cores).sum ≤ 2147483647 →
    totals.totalMemory + (listed.map Listing.bytes).sum ≤ longMax →
    ∃ after counted, listed.foldlM Totals.addListed totals = .ok after ∧ after.counted = totals.counted ++ counted ∧
      List.Forall₂ CountedOnce counted listed := by
  intro listed
  induction listed with
  | nil => exact fun _ _ _ _ _ _ _ => ⟨_, [], rfl, (List.append_nil _).symm, .nil⟩
  | cons listing listed ih =>
    intro totals plain noCpus noMemories someCpus someMemory cpusFit memoryFits
    rw [List.map_cons, List.sum_cons] at cpusFit memoryFits
    have restCores : 0 ≤ (listed.map Listing.cores).sum := by
      apply List.sum_nonneg
      intro cores member
      obtain ⟨other, _, rfl⟩ := List.mem_map.mp member
      exact cores_nonneg other.cpuForm
    rw [Nat.cast_add] at memoryFits
    obtain ⟨cpus, same, ran⟩ := addListed_plain (plain listing List.mem_cons_self) noCpus noMemories someCpus
      someMemory (by linarith) (by omega)
    have nonneg : 0 ≤ cpus := by
      have cores := cores_nonneg listing.cpuForm
      rw [← same] at cores
      exact_mod_cast cores
    rw [List.foldlM_cons, ran]
    obtain ⟨after, counted, rest, all, once⟩ := @ih
      { totals with
        totalCpus := totals.totalCpus + cpus
        totalMemory := totals.totalMemory + listing.bytes
        counted := totals.counted ++ [([cpus], [(listing.bytes : Int)])] }
      (fun other member => plain other (List.mem_cons_of_mem _ member)) noCpus noMemories
      (by simp only; omega) (by simp only; omega)
      (by rw [Int.cast_add, same, add_assoc]; exact cpusFit) (by simp only; omega)
    refine ⟨after, ([cpus], [(listing.bytes : Int)]) :: counted, rest, ?_, .cons ⟨cpus, rfl, same⟩ once⟩
    rw [all, List.append_assoc, List.singleton_append]

/-- The totals are reported: the cores, and the memory as a text that denotes it. -/
structure ReportsTotals (members : Members) (listed : List Listing) : Prop where
  cpus : members.lookup "clusterCpus" = some (.number (listed.map Listing.cores).sum)
  memory : ∃ text, Denotes text ((listed.map Listing.bytes).sum : Nat) ∧ members.lookup "clusterMemory" = some (.string text)

private theorem clusterNodes_ok_iff {output : Json} {nodes : List Json} (items : output.member "items" = some (.array nodes))
    (members : Members) (totals : Totals) :
    clusterNodes output = .ok (members, totals) ↔
      ∃ infos text, nodes.foldlM collectNode ([], {}) = .ok (infos, totals) ∧
        generateSuffixedString totals.totalMemory = .ok text ∧
        members = [("clusterNodes", .number nodes.length), ("clusterCpus", .number totals.totalCpus),
          ("clusterMemory", .string text), ("nodes", .array infos)] := by
  rw [clusterNodes, if_pos (Json.isObject_of_member items), Json.hasMember_of_member items, items]
  change (nodes.foldlM collectNode ([], {}) >>= _) = _ ↔ _
  cases nodes.foldlM collectNode ([], {}) with
  | error fault =>
    constructor
    · nofun
    · rintro ⟨_, _, ⟨⟩, _⟩
  | ok collected =>
    obtain ⟨infos, after⟩ := collected
    change (generateSuffixedString after.totalMemory >>= _) = _ ↔ _
    constructor
    · intro ran
      obtain ⟨text, written, done⟩ := bind_ok ran
      cases done
      exact ⟨infos, text, rfl, written, rfl⟩
    · rintro ⟨_, text, ⟨⟩, written, rfl⟩
      rw [written]
      rfl

/-- The totals are those of the nodes, each of which is counted once, exactly when each node has one
address that is looked at and quantities that are read, the sums fit what they are kept in, and nothing
of the sum of memory is lost when it is written. -/
theorem cluster_totals_iff {output : Json} {nodes : List Json} {listed : List Listing}
    (items : output.member "items" = some (.array nodes)) (described : List.Forall₂ ListedNode nodes listed) :
    (∃ members totals, clusterNodes output = .ok (members, totals) ∧
      List.Forall₂ CountedOnce totals.counted listed ∧ ReportsTotals members listed) ↔
    (∀ listing ∈ listed, listing.Plain) ∧ (listed.map Listing.cores).sum ≤ 2147483647 ∧
      (listed.map Listing.bytes).sum < 2 ^ 50 ∧ ((listed.map Listing.bytes).sum < 2 ^ 40 ∨
        (listed.map Listing.bytes).sum % 2 ^ 40 < 2 ^ 31 ∨
        1000 * 2 ^ 40 ≤ (listed.map Listing.bytes).sum ∧ 200 * ((listed.map Listing.bytes).sum % 2 ^ 40) ≤ 2 ^ 40) := by
  have each : ∀ node listing, ListedNode node listing → ∀ infos totals,
      Prod.snd <$> collectNode (infos, totals) node = Totals.addListed totals listing :=
    fun _ _ here infos totals => collectNode_adds here infos totals
  have counts := foldlM_second each described [] {}
  constructor
  · rintro ⟨members, totals, ran, once, reports⟩
    obtain ⟨infos, text, collected, written, rfl⟩ := (clusterNodes_ok_iff items members totals).mp ran
    rw [collected] at counts
    obtain ⟨counted, all, added, grown⟩ := nodes_ok listed rfl rfl counts.symm
    have same : totals.counted = counted := all
    rw [same] at once
    obtain ⟨sumCores, sumBytes⟩ := sums_of_counted once
    have totalMemory : totals.totalMemory = ((listed.map Listing.bytes).sum : Nat) := by
      rw [grown.totalMemory, sumBytes]
      exact zero_add _
    rw [totalMemory] at written
    obtain ⟨_, denotes, ⟨⟩⟩ := reports.memory
    have exact_ := (generate_denotes_iff _).mp ⟨text, written, denotes⟩
    have small := exact_.1
    refine ⟨?_, ?_, exact_⟩
    · intro listing member
      have fits : (listing.bytes : Int) ≤ longMax := by
        have part := List.le_sum_of_mem (List.mem_map_of_mem (f := Listing.bytes) member)
        unfold longMax
        omega
      obtain ⟨index, inside, found⟩ := List.getElem_of_mem member
      have lengths := once.length_eq
      have was := (List.forall₂_iff_get.mp added).2 index (by omega) inside
      have counts := (List.forall₂_iff_get.mp once).2 index (by omega) inside
      simp only [List.get_eq_getElem, found] at was counts
      exact plain_of_counted was counts fits
    · have inside := grown.inside (by decide)
      rw [grown.totalCpus] at inside
      rw [← sumCores]
      unfold intMax at inside
      have inside : (counted.flatMap Prod.fst).sum ≤ 2147483647 := by
        have zero : (({} : Totals).totalCpus) = 0 := rfl
        omega
      exact_mod_cast inside
  · rintro ⟨plain, coresFit, exact_⟩
    have bytesFit := exact_.1
    have bytesRoom : (({} : Totals).totalMemory) + ((listed.map Listing.bytes).sum : Nat) ≤ longMax := by
      have zero : (({} : Totals).totalMemory) = 0 := rfl
      unfold longMax
      omega
    have coresRoom : ((({} : Totals).totalCpus : Int) : ℚ) + (listed.map Listing.cores).sum ≤ 2147483647 := by
      have zero : (({} : Totals).totalCpus) = 0 := rfl
      rw [zero, Int.cast_zero, zero_add]
      exact coresFit
    obtain ⟨after, counted, ran, all, once⟩ := @nodes_plain listed {} plain rfl rfl (Int.le_refl _) (Int.le_refl _)
      coresRoom bytesRoom
    rw [ran] at counts
    cases collected : nodes.foldlM collectNode ([], {}) with
    | error fault =>
      rw [collected] at counts
      cases counts
    | ok found =>
      obtain ⟨infos, totals⟩ := found
      rw [collected] at counts
      cases counts
      obtain ⟨counted', all', added, grown⟩ := nodes_ok listed rfl rfl ran
      have same : counted' = counted := List.append_cancel_left (all'.symm.trans all)
      subst same
      obtain ⟨sumCores, sumBytes⟩ := sums_of_counted once
      have totalMemory : totals.totalMemory = ((listed.map Listing.bytes).sum : Nat) := by
        rw [grown.totalMemory, sumBytes]
        exact zero_add _
      have totalCpus : ((totals.totalCpus : Int) : ℚ) = (listed.map Listing.cores).sum := by
        rw [grown.totalCpus, ← sumCores]
        exact congrArg Int.cast (zero_add _)
      obtain ⟨text, written, denotes⟩ := (generate_denotes_iff _).mpr exact_
      refine ⟨_, totals, (clusterNodes_ok_iff items _ totals).mpr ⟨infos, text, collected, ?_, rfl⟩, ?_, ?_, text, denotes, rfl⟩
      · rw [totalMemory]
        exact written
      · rw [show totals.counted = counted' from all]
        exact once
      · rw [← totalCpus]
        rfl

def describedNode (types : List String) (cpu memory : String) : Json :=
  .object [
    ("metadata", .object [("name", .string "worker")]),
    ("status", .object [
      ("addresses", .array (types.map fun type => .object [("type", .string type), ("address", .string "10.0.0.1")])),
      ("allocatable", .object [("cpu", .string cpu), ("memory", .string memory)])])]

private theorem listed_addresses (types : List String) : List.Forall₂ ListedAddress
    (types.map fun type => .object [("type", .string type), ("address", .string "10.0.0.1")]) types := by
  induction types with
  | nil => exact .nil
  | cons type types ih => exact .cons ⟨rfl, _, rfl⟩ ih

private theorem describedNode_listed (listing : Listing) :
    ListedNode (describedNode listing.types listing.cpu listing.memory) listing := by
  refine ⟨⟨_, "worker", rfl, rfl⟩, _, rfl, Or.inr ⟨_, rfl, listed_addresses listing.types⟩, ⟨_, rfl, ⟨rfl, ?_⟩, rfl, rfl⟩, ?_⟩
  · intro name found there
    simp only [Json.member, List.lookup_cons, List.lookup_nil] at there
    split at there
    next =>
      cases there
      exact ⟨_, rfl⟩
    next =>
      split at there
      next =>
        cases there
        exact ⟨_, rfl⟩
      next => cases there
  · intro _ impossible
    cases impossible

def fourCores (types : List String) : Listing where
  types := types
  cpu := "4"
  memory := "16Gi"
  cores := 4
  bytes := 17179869184
  cpuForm := by decide +kernel
  memoryForm := by decide +kernel

def listOf (types : List String) : Json := .object [("items", .array [describedNode types "4" "16Gi"])]

theorem cluster_totals_once :
    (∃ members totals, clusterNodes (listOf ["InternalIP", "Hostname"]) = .ok (members, totals) ∧
      List.Forall₂ CountedOnce totals.counted [fourCores ["InternalIP", "Hostname"]] ∧
      ReportsTotals members [fourCores ["InternalIP", "Hostname"]]) ↔
    (∀ listing ∈ [fourCores ["InternalIP", "Hostname"]], listing.Plain) ∧
      ([fourCores ["InternalIP", "Hostname"]].map Listing.cores).sum ≤ 2147483647 ∧
      ([fourCores ["InternalIP", "Hostname"]].map Listing.bytes).sum < 2 ^ 50 ∧
        (([fourCores ["InternalIP", "Hostname"]].map Listing.bytes).sum < 2 ^ 40 ∨
          ([fourCores ["InternalIP", "Hostname"]].map Listing.bytes).sum % 2 ^ 40 < 2 ^ 31 ∨
          1000 * 2 ^ 40 ≤ ([fourCores ["InternalIP", "Hostname"]].map Listing.bytes).sum ∧
            200 * (([fourCores ["InternalIP", "Hostname"]].map Listing.bytes).sum % 2 ^ 40) ≤ 2 ^ 40) :=
  cluster_totals_iff rfl (.cons (describedNode_listed (fourCores ["InternalIP", "Hostname"])) .nil)

/-- A node that has an internal and an external address is counted twice. -/
theorem cluster_totals_twice :
    List.Forall₂ ListedNode [describedNode ["InternalIP", "ExternalIP"] "4" "16Gi"]
      [fourCores ["InternalIP", "ExternalIP"]] ∧
    ¬ ∃ members totals, clusterNodes (listOf ["InternalIP", "ExternalIP"]) = .ok (members, totals) ∧
      List.Forall₂ CountedOnce totals.counted [fourCores ["InternalIP", "ExternalIP"]] ∧
      ReportsTotals members [fourCores ["InternalIP", "ExternalIP"]] := by
  refine ⟨.cons (describedNode_listed (fourCores ["InternalIP", "ExternalIP"])) .nil, ?_⟩
  rintro ⟨members, totals, ran, once, -⟩
  have counted : (fun result => result.2.counted) <$> clusterNodes (listOf ["InternalIP", "ExternalIP"]) =
      .ok [([4, 4], [17179869184, 17179869184])] := by decide +kernel
  rw [ran] at counted
  have counted : totals.counted = [([4, 4], [17179869184, 17179869184])] := Except.ok.inj counted
  rw [counted] at once
  cases once with
  | cons here _ =>
    obtain ⟨cpus, same, _⟩ := here
    cases same

end Slate
