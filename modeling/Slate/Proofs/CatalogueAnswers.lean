import Slate.Proofs.HelmTables
import Slate.Library.Serving
import Mathlib.Data.List.Perm.Subperm
import Mathlib.Order.Monotone.Basic

/-! What the catalogue answers, against what the chart repositories hold. -/

namespace Slate
open Library Catalogue

structure Chart where
  name : String
  chartVersion : String
  version : String
  description : String
  deriving DecidableEq, Repr

namespace Chart

def application (chart : Chart) : Application := ⟨true, chart.name, chart.version, chart.chartVersion, chart.description⟩

def row (repository : String) (chart : Chart) : HelmRow :=
  ⟨repository ++ "/" ++ chart.name, chart.chartVersion, chart.version, chart.description⟩

private theorem application_injective : Function.Injective application := by
  rintro ⟨⟩ ⟨⟩ same
  simp only [application, Application.mk.injEq] at same
  simp only [Chart.mk.injEq]
  tauto

end Chart

/-- The chart repositories. Which charts satisfy a requested version, and which of several
charts is the newest, is for Helm to say. -/
structure Charts where
  charts : String → List Chart
  satisfies : String → Chart → Bool
  newest : List Chart → Option Chart
  newest_mem : ∀ charts chart, newest charts = some chart → chart ∈ charts

namespace Charts

/-- The chart of an application that a request for a version gets. -/
def offered (contents : Charts) (repository name chartVersion : String) : Option Chart :=
  contents.newest ((contents.charts repository).filter fun chart => chart.name = name ∧ contents.satisfies chartVersion chart)

/-- The applications of a repository, each by the chart that is offered without a request. -/
def listed (contents : Charts) (repository : String) : List Chart :=
  (((contents.charts repository).map Chart.name).dedup).filterMap fun name => contents.offered repository name ""

def lookup (contents : Charts) (repository name chartVersion : String) : Application :=
  ((contents.offered repository name chartVersion).map Chart.application).getD {}

variable {contents : Charts} {repository name chartVersion : String} {chart other : Chart}

theorem offered_name (found : contents.offered repository name chartVersion = some chart) :
    chart ∈ contents.charts repository ∧ chart.name = name := by
  have member := contents.newest_mem _ _ found
  simp only [List.mem_filter, decide_eq_true_eq] at member
  exact ⟨member.1, member.2.1⟩

theorem mem_listed : chart ∈ contents.listed repository ↔ contents.offered repository chart.name "" = some chart := by
  simp only [listed, List.mem_filterMap, List.mem_dedup, List.mem_map]
  constructor
  · rintro ⟨name, -, found⟩
    rw [(offered_name found).2]
    exact found
  · intro found
    exact ⟨chart.name, ⟨chart, (offered_name found).1, rfl⟩, found⟩

/-- No application is listed twice. -/
theorem listed_unique (left : chart ∈ contents.listed repository) (right : other ∈ contents.listed repository)
    (same : chart.name = other.name) : chart = other := by
  rw [mem_listed] at left right
  rw [same] at left
  exact Option.some.inj (left.symm.trans right)

private theorem listed_nodup : (contents.listed repository).Nodup := by
  refine List.Nodup.filterMap ?_ (List.nodup_dedup _)
  intro first second chart left right
  rw [← (offered_name left).2, ← (offered_name right).2]

end Charts

structure Helm where
  majorVersion : Nat
  layout : HelmLayout
  found : String → String → List HelmRow
  listing : String → List HelmRow

namespace Helm

/-- The widest column there is without an option that widens it. -/
def defaultWidth (helm : Helm) : Nat := if helm.majorVersion = 2 then 60 else 50

def listingWidth (helm : Helm) : Nat :=
  if helm.majorVersion = 2 ∨ helm.majorVersion = 3 then 1024 else helm.defaultWidth

/-- The program prints a table of these rows. Helm makes blanks of the line breaks and tabulators that
it finds in a chart. -/
structure Prints (helm : Helm) (outside : Outside) (arguments : List String) (width : Nat) (rows : List HelmRow) : Prop where
  result : ∃ error, outside.run "helm" arguments [] = .ok ⟨helm.layout.printed width rows, error, 0⟩
  plain : ∀ row ∈ rows, ∀ cell ∈ row.cells, Undivided cell

/-- Helm finds among others the application of the name that is looked for, in the version
that is asked for; and the prefix of a repository gets all its applications. -/
structure Searches (helm : Helm) (outside : Outside) (contents : Charts) : Prop where
  version : outside.helmVersionAnswer = .ok helm.majorVersion
  lookup : ∀ target chartVersion,
    helm.Prints outside (findArguments helm.majorVersion target chartVersion) helm.defaultWidth (helm.found target chartVersion)
  named : ∀ repository name chartVersion row, row.name = repository ++ "/" ++ name →
    (row ∈ helm.found (repository ++ "/" ++ name) chartVersion ↔
      ∃ chart, contents.offered repository name chartVersion = some chart ∧ row = chart.row repository)
  listing : ∀ repository,
    helm.Prints outside (fetchArguments helm.majorVersion repository) helm.listingWidth (helm.listing repository)
  listed : ∀ repository, ∃ charts : List Chart, charts.Perm (contents.listed repository) ∧
    helm.listing repository = charts.map (Chart.row repository)

/-- Helm tells of a look-up that it finds nothing when there is no such application, and only then; and the rows
that can be taken for the one looked for are printed whole. -/
structure Tells (helm : Helm) (contents : Charts) (repository name chartVersion : String) : Prop where
  missing : contains (helm.layout.printed helm.defaultWidth (helm.found (repository ++ "/" ++ name) chartVersion)) noResults = true ↔
    contents.offered repository name chartVersion = none
  whole : ∀ row ∈ helm.found (repository ++ "/" ++ name) chartVersion,
    row.name = repository ++ "/" ++ name ∨ helm.layout.read helm.defaultWidth row.name = (repository ++ "/" ++ name).toList →
      helm.layout.Whole helm.defaultWidth row

end Helm

inductive CatalogueCall
  | findApplication (repository appName chartVersion : String)
  | fetchApplications (repository : String)
  | listApplications (repository : String)
  deriving DecidableEq, Repr

inductive CatalogueAnswer
  | application (application : Application)
  | applications (applications : List Application)
  deriving DecidableEq, Repr

def CatalogueCall.serve (outside : Outside) : CatalogueCall → CatalogueM CatalogueAnswer
  | .findApplication repository appName chartVersion =>
    return .application (← Slate.findApplication outside repository appName chartVersion)
  | .fetchApplications repository => return .applications (← Slate.fetchApplications outside repository)
  | .listApplications repository => return .applications (← Slate.listApplications outside repository)

/-- The answer is what the repositories hold. The order of a listing is unspecified. -/
def CatalogueCall.Answered (contents : Charts) : CatalogueCall → CatalogueAnswer → Prop
  | .findApplication repository appName chartVersion, answer =>
    answer = .application (contents.lookup repository appName chartVersion)
  | .fetchApplications repository, answer | .listApplications repository, answer =>
    ∃ applications, answer = .applications applications ∧
      applications.Perm ((contents.listed repository).map Chart.application)

def servedCalls (outside : Outside) (calls : List CatalogueCall) (start : Catalogue) :
    List (Served CatalogueCall Catalogue (Except String CatalogueAnswer)) :=
  serveAll (fun call => attempt (call.serve outside)) calls start

/-- The look-up finds no valid record of the name. -/
def Catalogue.misses (catalogue : Catalogue) (repository appName : String) : Bool :=
  match findCachedApplication repository appName catalogue with
  | .ok none _ => true
  | _ => false

/-- A look-up asks for the version that is listed, and Helm tells of it if it is asked. A listing is not made from
records of which one expires before the listing does, and otherwise every row of it is printed whole. -/
def CatalogueCall.Timely (helm : Helm) (contents : Charts) : CatalogueCall → Catalogue → Prop
  | .findApplication repository appName chartVersion, catalogue =>
    contents.offered repository appName chartVersion = contents.offered repository appName "" ∧
      (catalogue.misses repository appName → helm.Tells contents repository appName chartVersion)
  | .fetchApplications repository, _ => ∀ row ∈ helm.listing repository, helm.layout.Whole helm.listingWidth row
  | .listApplications repository, catalogue =>
    if catalogue.clock 0 < catalogue.applicationCache.stamp repository then
      ∀ entry ∈ (catalogue.applicationCache.find repository).members,
        catalogue.clock (catalogue.applicationCache.find repository).members.length ≤ entry.expirationTime
    else ∀ row ∈ helm.listing repository, helm.layout.Whole helm.listingWidth row

namespace Catalogue

structure Waits (before after : Catalogue) : Prop where
  cache : after.applicationCache = before.applicationCache
  clock : ∃ n, ∀ k, after.clock k = before.clock (n + k)

namespace Waits

variable {first second third : Catalogue}

theorem refl (catalogue : Catalogue) : Waits catalogue catalogue := ⟨rfl, 0, fun k => by rw [Nat.zero_add]⟩

theorem tick (catalogue : Catalogue) : Waits catalogue catalogue.tick := ⟨rfl, 1, fun k => by rw [Nat.add_comm]; rfl⟩

theorem trans (early : Waits first second) (late : Waits second third) : Waits first third := by
  obtain ⟨n, before⟩ := early.clock
  obtain ⟨m, after⟩ := late.clock
  exact ⟨late.cache.trans early.cache, n + m, fun k => by rw [after, before, Nat.add_assoc]⟩

end Waits

variable {contents : Charts} {catalogue after : Catalogue} {repository other : String} {chart : Chart}

/-- The application is in the category of the repository, as it is listed. -/
def Shows (catalogue : Catalogue) (repository : String) (chart : Chart) : Prop :=
  ∃ entry, catalogue.applicationCache.Holds repository entry ∧ entry.record = chart.application

/-- Everything cached is listed, and a category that is not expired shows all that is. -/
structure Coherent (contents : Charts) (catalogue : Catalogue) : Prop where
  steady : Monotone catalogue.clock
  sound : ∀ repository entry, catalogue.applicationCache.Holds repository entry →
    ∃ chart ∈ contents.listed repository, entry.record = chart.application
  complete : ∀ repository, catalogue.clock 0 < catalogue.applicationCache.stamp repository →
    ∀ chart ∈ contents.listed repository, catalogue.Shows repository chart

theorem Coherent.cold (cold : catalogue.applicationCache = ∅) (steady : Monotone catalogue.clock) :
    Coherent contents catalogue where
  steady := steady
  sound repository entry holds := by
    rw [cold, ConcurrentMultimap.Holds, ConcurrentMultimap.findValue_eq, ConcurrentMultimap.entryOf_empty] at holds
    cases holds
  complete repository early := by
    rw [cold, ConcurrentMultimap.stamp_empty] at early
    exact absurd early (Nat.not_lt_zero _)

theorem Coherent.waits (coherent : Coherent contents catalogue) (waits : Waits catalogue after) :
    Coherent contents after := by
  obtain ⟨n, later⟩ := waits.clock
  refine ⟨?_, ?_, ?_⟩
  · intro first second order
    rw [later, later]
    exact coherent.steady (Nat.add_le_add_left order n)
  · rw [waits.cache]
    exact coherent.sound
  · intro repository early chart member
    rw [waits.cache, later] at early
    have before := coherent.steady (Nat.zero_le (n + 0))
    rw [Shows, waits.cache]
    exact coherent.complete repository (Nat.lt_of_le_of_lt before early) chart member

/-- The catalogue with one more record, for which the clock is read once. -/
def caching (catalogue : Catalogue) (repository : String) (application : Application) : Catalogue where
  applicationCache := (catalogue.applicationCache.insertOrAssign repository
    ⟨application, catalogue.clock 0 + applicationCacheValidity⟩ (catalogue.clock 1)).2
  clock := fun n => catalogue.clock (n + 2)

theorem holds_caching {entry : CacheRecord Application} {application : Application} :
    (catalogue.caching repository application).applicationCache.Holds other entry ↔
      if other = repository ∧ ident entry.record = ident application then
        entry = ⟨application, catalogue.clock 0 + applicationCacheValidity⟩
      else catalogue.applicationCache.Holds other entry := by
  rw [ConcurrentMultimap.Holds, ConcurrentMultimap.findValue_eq, caching, ConcurrentMultimap.entryOf_insertOrAssign]
  split
  · rw [Option.some.injEq]
    exact eq_comm
  · rfl

/-- An application that is listed replaces none but itself. -/
theorem Shows.caching (shows : catalogue.Shows repository chart) {application : Chart}
    (left : chart ∈ contents.listed repository) (right : application ∈ contents.listed other) :
    (catalogue.caching other application.application).Shows repository chart := by
  obtain ⟨entry, holds, same⟩ := shows
  by_cases replaced : repository = other ∧ ident entry.record = ident application.application
  · obtain ⟨rfl, alike⟩ := replaced
    have one : chart = application := by
      rw [same] at alike
      exact Charts.listed_unique left right (congrArg Prod.fst alike)
    refine ⟨⟨application.application, catalogue.clock 0 + applicationCacheValidity⟩, ?_, by rw [one]⟩
    rw [holds_caching, if_pos ⟨rfl, rfl⟩]
  · refine ⟨entry, ?_, same⟩
    rw [holds_caching, if_neg replaced]
    exact holds

private theorem shows_caching (catalogue : Catalogue) (repository : String) (chart : Chart) :
    (catalogue.caching repository chart.application).Shows repository chart := by
  refine ⟨⟨chart.application, catalogue.clock 0 + applicationCacheValidity⟩, ?_, rfl⟩
  rw [holds_caching, if_pos ⟨rfl, rfl⟩]

theorem Coherent.caching (coherent : Coherent contents catalogue) (member : chart ∈ contents.listed repository) :
    Coherent contents (catalogue.caching repository chart.application) where
  steady first second order := coherent.steady (Nat.add_le_add_right order 2)
  sound other entry holds := by
    rw [holds_caching] at holds
    split at holds
    next here =>
      rw [holds, here.1]
      exact ⟨chart, member, rfl⟩
    next => exact coherent.sound other entry holds
  complete other early listed right := by
    -- A category that is created expires at once.
    have later : catalogue.clock 1 ≤ catalogue.clock 2 := coherent.steady (by decide)
    have before : catalogue.clock 0 ≤ catalogue.clock 2 := coherent.steady (by decide)
    rw [Catalogue.caching, ConcurrentMultimap.stamp_insertOrAssign] at early
    split at early
    · exact absurd early (Nat.not_lt_of_le later)
    · exact (coherent.complete other (Nat.lt_of_le_of_lt before early) listed right).caching right member

private theorem returns_cacheApplication (repository : String) (application : Application) (catalogue : Catalogue)
    (post : Unit → Catalogue → Prop) : Returns (cacheApplication repository application) catalogue post ↔
      post () (catalogue.caching repository application) := Iff.rfl

theorem returns_current (entry : CacheRecord Application) (catalogue : Catalogue) (post : Bool → Catalogue → Prop) :
    Returns (current entry) catalogue post ↔
      post (decide (catalogue.clock 0 ≤ entry.expirationTime)) catalogue.tick := Iff.rfl

private theorem returns_findCurrent (appName : String) (records : List (CacheRecord Application)) (catalogue : Catalogue) :
    Returns (findCurrent appName records) catalogue fun found after => Waits catalogue after ∧
      ∀ application, found = some application → ∃ record ∈ records, record.record = application ∧ application.name = appName := by
  induction records generalizing catalogue with
  | nil => exact ⟨.refl catalogue, fun _ none => nomatch none⟩
  | cons record records ih =>
    have rest : ∀ moved : Catalogue, Waits catalogue moved → Returns (findCurrent appName records) moved fun found after =>
        Waits catalogue after ∧ ∀ application, found = some application →
          ∃ entry ∈ record :: records, entry.record = application ∧ application.name = appName := by
      intro moved waits
      refine (ih moved).mono ?_
      rintro found after ⟨later, named⟩
      refine ⟨waits.trans later, fun application same => ?_⟩
      obtain ⟨entry, member, held⟩ := named application same
      exact ⟨entry, .tail _ member, held⟩
    unfold findCurrent
    split
    next named =>
      rw [returns_bind, returns_current]
      split
      · refine ⟨.tick catalogue, fun application same => ?_⟩
        cases same
        exact ⟨record, .head _, rfl, named⟩
      · exact rest _ (.tick catalogue)
    next => exact rest _ (.refl catalogue)

/-- Records of which none expires while they are looked at are all returned. -/
theorem returns_currentMembers (records : List (CacheRecord Application)) (catalogue : Catalogue)
    (steady : Monotone catalogue.clock) (lasting : ∀ entry ∈ records, catalogue.clock (records.length - 1) ≤ entry.expirationTime) :
    Returns (currentMembers records) catalogue fun results after => Waits catalogue after ∧
      results = records.map CacheRecord.record := by
  induction records generalizing catalogue with
  | nil => exact ⟨.refl catalogue, rfl⟩
  | cons record records ih =>
    have early := steady (Nat.zero_le ((record :: records).length - 1))
    have kept : decide (catalogue.clock 0 ≤ record.expirationTime) = true :=
      decide_eq_true (Nat.le_trans early (lasting record (.head _)))
    have steadyRest : Monotone catalogue.tick.clock := fun first second order => steady (Nat.add_le_add_right order 1)
    have lastingRest : ∀ entry ∈ records, catalogue.tick.clock (records.length - 1) ≤ entry.expirationTime := by
      intro entry member
      have positive := List.length_pos_of_mem member
      have shift : catalogue.tick.clock (records.length - 1) = catalogue.clock ((record :: records).length - 1) := by
        show catalogue.clock (records.length - 1 + 1) = _
        rw [List.length_cons, Nat.sub_add_cancel positive, Nat.add_sub_cancel]
      rw [shift]
      exact lasting entry (.tail _ member)
    unfold currentMembers
    rw [returns_bind, returns_current, kept, returns_bind]
    refine (ih catalogue.tick steadyRest lastingRest).mono ?_
    rintro results after ⟨waits, same⟩
    rw [returns_pure, if_pos rfl, same]
    exact ⟨(Waits.tick catalogue).trans waits, rfl⟩

private theorem substr_begin (repository name : String) :
    substr (repository ++ "/" ++ name).toList (repository.length + 1) = .ok name.toList := by
  have shape : (repository ++ "/" ++ name).toList = repository.toList ++ '/' :: name.toList := by
    simp [String.toList_append]
  have long : ¬ (repository.toList ++ '/' :: name.toList).length < repository.length + 1 := by
    rw [List.length_append, String.length_toList, List.length_cons]
    omega
  have cut : (repository.toList ++ '/' :: name.toList).drop (repository.length + 1) = name.toList := by
    rw [← String.length_toList, ← List.drop_drop, List.drop_left]
    rfl
  rw [substr, shape, if_neg long, cut]

section
variable {layout : HelmLayout} {width : Nat} {table : List HelmRow} (wide : 0 < width) (headed : HelmRow.heading ∈ table)
include wide headed

private theorem returns_fetchLine (whole : layout.Whole width (chart.row repository))
    (plain : ∀ cell ∈ (chart.row repository).cells, Undivided cell)
    (catalogue : Catalogue) (post : Application → Catalogue → Prop) :
    Returns (fetchLine repository (layout.line width table (chart.row repository))) catalogue post ↔
      post chart.application (catalogue.caching repository chart.application) := by
  have columns := whole.columns plain wide headed
  have named := substr_begin repository chart.name
  unfold fetchLine
  rw [columns]
  simp only [HelmRow.cells, Chart.row, List.map_cons, named, ofExcept, String.ofList_toList, pure_bind]
  exact Iff.rfl

end

/-- The catalogue once a listing has been stamped. -/
def stamped (catalogue : Catalogue) (repository : String) : Catalogue where
  applicationCache := (catalogue.applicationCache.updateExpiration repository (catalogue.clock 0 + applicationCacheValidity)).2
  clock := fun n => catalogue.clock (n + 1)

private theorem holds_stamped {entry : CacheRecord Application} :
    (catalogue.stamped repository).applicationCache.Holds other entry ↔ catalogue.applicationCache.Holds other entry := by
  simp only [ConcurrentMultimap.Holds, ConcurrentMultimap.findValue_eq, stamped, ConcurrentMultimap.entryOf_updateExpiration]

theorem Coherent.stamped (coherent : Coherent contents catalogue)
    (shown : ∀ chart ∈ contents.listed repository, catalogue.Shows repository chart) :
    Coherent contents (catalogue.stamped repository) where
  steady first second order := coherent.steady (Nat.add_le_add_right order 1)
  sound other entry holds := coherent.sound other entry (holds_stamped.mp holds)
  complete other early chart member := by
    have before : catalogue.clock 0 ≤ catalogue.clock 1 := coherent.steady (by decide)
    have shows : catalogue.Shows other chart := by
      rw [Catalogue.stamped, ConcurrentMultimap.stamp_updateExpiration] at early
      split at early
      next here =>
        obtain ⟨rfl, -⟩ := here
        exact shown chart member
      next => exact coherent.complete other (Nat.lt_of_le_of_lt before early) chart member
    obtain ⟨entry, holds, same⟩ := shows
    exact ⟨entry, holds_stamped.mpr holds, same⟩

/-- The loop over the lines caches every application, and what was shown stays shown. -/
theorem returns_fetchLines {layout : HelmLayout} {width : Nat} {table : List HelmRow} (wide : 0 < width)
    (headed : HelmRow.heading ∈ table) {charts : List Chart} (coherent : Coherent contents catalogue)
    (listed : ∀ chart ∈ charts, chart ∈ contents.listed repository)
    (plain : ∀ chart ∈ charts, ∀ cell ∈ (chart.row repository).cells, Undivided cell)
    (whole : ∀ chart ∈ charts, layout.Whole width (chart.row repository)) :
    Returns (((charts.map (Chart.row repository)).map (layout.line width table)).mapM (fetchLine repository)) catalogue
      fun results after => Coherent contents after ∧ (∀ chart ∈ contents.listed repository,
        chart ∈ charts ∨ catalogue.Shows repository chart → after.Shows repository chart) ∧
      results = charts.map Chart.application := by
  induction charts generalizing catalogue with
  | nil => exact ⟨coherent, fun chart _ shown => shown.resolve_left (List.not_mem_nil), rfl⟩
  | cons first charts ih =>
    have here := listed first (.head _)
    rw [List.map_cons, List.map_cons, List.mapM_cons, returns_bind,
      returns_fetchLine wide headed (whole first (.head _)) (plain first (.head _)), returns_bind]
    refine (ih (coherent.caching here) (fun chart member => listed chart (.tail _ member))
      (fun chart member => plain chart (.tail _ member)) fun chart member => whole chart (.tail _ member)).mono ?_
    rintro results after ⟨kept, shown, same⟩
    rw [returns_pure, same]
    refine ⟨kept, fun chart member either => shown chart member ?_, rfl⟩
    rcases either with among | before
    · rcases List.mem_cons.mp among with rfl | later
      · exact .inr (shows_caching catalogue repository chart)
      · exact .inl later
    · exact .inr (before.caching member here)

private theorem defaultWidth_pos (helm : Helm) : 0 < helm.defaultWidth := by
  unfold Helm.defaultWidth
  split <;> decide

private theorem listingWidth_pos (helm : Helm) : 0 < helm.listingWidth := by
  unfold Helm.listingWidth
  split
  · decide
  · exact defaultWidth_pos helm

private theorem returns_fetchApplications {helm : Helm} {outside : Outside} (searches : helm.Searches outside contents)
    (coherent : Coherent contents catalogue) (repository : String)
    (whole : ∀ row ∈ helm.listing repository, helm.layout.Whole helm.listingWidth row) :
    Returns (fetchApplications outside repository) catalogue fun results after =>
      Coherent contents after ∧ results.Perm ((contents.listed repository).map Chart.application) := by
  obtain ⟨⟨error, output⟩, plain⟩ := searches.listing repository
  obtain ⟨charts, listing, rows⟩ := searches.listed repository
  have lines := @HelmLayout.stringSplitLines_printed helm.layout helm.listingWidth _ plain
  have finish : ∀ results after, (Coherent contents after ∧ (∀ chart ∈ contents.listed repository,
      chart ∈ charts ∨ catalogue.Shows repository chart → after.Shows repository chart) ∧
      results = charts.map Chart.application) → Coherent contents (after.stamped repository) ∧
        results.Perm ((contents.listed repository).map Chart.application) := by
    rintro results after ⟨kept, shown, rfl⟩
    exact ⟨kept.stamped fun chart member => shown chart member (.inl (listing.mem_iff.mpr member)), listing.map _⟩
  rw [rows] at plain whole
  rw [rows] at lines
  have fetched := (returns_fetchLines (listingWidth_pos helm)
    (.head (charts.map (Chart.row repository))) coherent (fun chart member => listing.mem_iff.mp member)
    (fun chart member => plain _ (List.mem_map_of_mem member)) fun chart member => whole _ (List.mem_map_of_mem member)).mono finish
  unfold fetchApplications
  simp only [searches.version, output, ofExcept, pure_bind, ne_eq, not_true_eq_false, if_false, rows, lines]
  rw [returns_bind]
  exact fetched

/-- What is cached for a name is what the repository offers without a request. -/
theorem returns_findCachedApplication (coherent : Coherent contents catalogue) (repository appName : String) :
    Returns (findCachedApplication repository appName) catalogue fun found after => Coherent contents after ∧
      ∀ application, found = some application → ∃ chart, contents.offered repository appName "" = some chart ∧
        application = chart.application := by
  unfold findCachedApplication
  rw [returns_bind, returns_get]
  show Returns (if _ then _ else _) catalogue.tick _
  split
  · refine (returns_findCurrent appName _ catalogue.tick).mono ?_
    rintro found after ⟨waits, named⟩
    refine ⟨(coherent.waits (.tick catalogue)).waits waits, fun application same => ?_⟩
    obtain ⟨record, member, held, name⟩ := named application same
    obtain ⟨chart, listed, shown⟩ := coherent.sound repository record (ConcurrentMultimap.mem_find_members.mp member)
    have one : application = chart.application := held.symm.trans shown
    have called : chart.name = appName := by rw [← name, one]; rfl
    exact ⟨chart, called ▸ Charts.mem_listed.mp listed, one⟩
  · exact ⟨coherent.waits (.tick catalogue), fun _ none => by cases none⟩

/-- A look-up that asks for the version that is listed. -/
theorem returns_findApplication {helm : Helm} {outside : Outside} (searches : helm.Searches outside contents)
    (coherent : Coherent contents catalogue) {repository appName chartVersion : String}
    (timely : (CatalogueCall.findApplication repository appName chartVersion).Timely helm contents catalogue) :
    Returns (findApplication outside repository appName chartVersion) catalogue fun application after =>
      Coherent contents after ∧ application = contents.lookup repository appName chartVersion := by
  obtain ⟨current, tells⟩ := timely
  obtain ⟨cached, after, ran, kept, right⟩ := returns_iff.mp (returns_findCachedApplication coherent repository appName)
  unfold findApplication
  rw [returns_bind, returns_iff]
  refine ⟨cached, after, ran, ?_⟩
  cases cached with
  | some application =>
    obtain ⟨chart, offered, same⟩ := right application rfl
    exact ⟨kept, by rw [same, Charts.lookup, current, offered]; rfl⟩
  | none =>
    have missed : catalogue.misses repository appName = true := by rw [misses, ran]
    obtain ⟨missing, whole⟩ := tells missed
    obtain ⟨⟨error, output⟩, plain⟩ := searches.lookup (repository ++ "/" ++ appName) chartVersion
    have named := searches.named repository appName chartVersion
    have lines := @HelmLayout.stringSplitLines_printed helm.layout helm.defaultWidth _ plain
    simp only [searches.version, output, ofExcept, pure_bind, ne_eq, not_true_eq_false, if_false, lines]
    rw [current] at missing named
    rw [Charts.lookup, current]
    cases offered : contents.offered repository appName "" with
    | none =>
      rw [if_pos (missing.mpr offered)]
      exact ⟨kept, rfl⟩
    | some chart =>
      obtain ⟨-, rfl⟩ := Charts.offered_name offered
      have told : ¬ contains (helm.layout.printed helm.defaultWidth (helm.found (repository ++ "/" ++ chart.name) chartVersion))
          noResults = true := by
        rw [missing, offered]
        exact Option.some_ne_none chart
      have member := (named (chart.row repository) rfl).mpr ⟨chart, offered, rfl⟩
      have only : ∀ other ∈ helm.found (repository ++ "/" ++ chart.name) chartVersion,
          other.name = repository ++ "/" ++ chart.name → other = chart.row repository := by
        intro other among same
        obtain ⟨found, here, row⟩ := (named other same).mp among
        rw [row, Option.some.inj (here.symm.trans offered)]
      rw [if_neg told, HelmLayout.matchingLine_rows (defaultWidth_pos helm) (.head _) plain whole member rfl only]
      simp only [pure_bind]
      rw [returns_bind, returns_cacheApplication]
      exact ⟨kept.caching (Charts.mem_listed.mpr offered), rfl⟩

private theorem Category.members_map_nodup (category : Category Application) :
    (category.members.map CacheRecord.record).Nodup := by
  have idents : ((category.members.map CacheRecord.record).map fun application => ident application).Nodup := by
    rw [List.map_map]
    exact category.members_ident_nodup
  exact idents.of_map

/-- The records of a category that is not expired are the listing, in some order. -/
theorem Coherent.members (coherent : Coherent contents catalogue)
    (fresh : catalogue.clock 0 < catalogue.applicationCache.stamp repository) :
    ((catalogue.applicationCache.find repository).members.map CacheRecord.record).Perm
      ((contents.listed repository).map Chart.application) := by
  rw [List.perm_ext_iff_of_nodup (Category.members_map_nodup _) (Charts.listed_nodup.map Chart.application_injective)]
  intro application
  simp only [List.mem_map, ConcurrentMultimap.mem_find_members]
  constructor
  · rintro ⟨entry, holds, rfl⟩
    obtain ⟨chart, member, same⟩ := coherent.sound repository entry holds
    exact ⟨chart, member, same.symm⟩
  · rintro ⟨chart, member, rfl⟩
    exact coherent.complete repository fresh chart member

private theorem returns_listApplications {helm : Helm} {outside : Outside} (searches : helm.Searches outside contents)
    (coherent : Coherent contents catalogue) {repository : String}
    (timely : (CatalogueCall.listApplications repository).Timely helm contents catalogue) :
    Returns (listApplications outside repository) catalogue fun results after =>
      Coherent contents after ∧ results.Perm ((contents.listed repository).map Chart.application) := by
  unfold listApplications
  rw [returns_bind, returns_get]
  show Returns (if catalogue.clock 0 < catalogue.applicationCache.stamp repository then _ else _) catalogue.tick _
  by_cases fresh : catalogue.clock 0 < catalogue.applicationCache.stamp repository
  · have lasting := (if_pos fresh).mp timely
    have steady : Monotone catalogue.tick.clock := (coherent.waits (.tick catalogue)).steady
    rw [if_pos fresh]
    refine (returns_currentMembers _ catalogue.tick steady fun entry member => ?_).mono ?_
    · have positive := List.length_pos_of_mem member
      have shift : catalogue.tick.clock ((catalogue.applicationCache.find repository).members.length - 1) =
          catalogue.clock (catalogue.applicationCache.find repository).members.length := by
        show catalogue.clock (_ - 1 + 1) = _
        rw [Nat.sub_add_cancel positive]
      rw [shift]
      exact lasting entry member
    · rintro results after ⟨waits, rfl⟩
      exact ⟨(coherent.waits (.tick catalogue)).waits waits, coherent.members fresh⟩
  · rw [if_neg fresh]
    exact returns_fetchApplications searches (coherent.waits (.tick catalogue)) repository ((if_neg fresh).mp timely)

/-- Every call that is timely keeps the catalogue coherent, and is answered. -/
theorem returns_serve {helm : Helm} {outside : Outside} (searches : helm.Searches outside contents)
    (coherent : Coherent contents catalogue) (call : CatalogueCall) (timely : call.Timely helm contents catalogue) :
    Returns (call.serve outside) catalogue fun answer after => Coherent contents after ∧ call.Answered contents answer := by
  cases call with
  | findApplication repository appName chartVersion =>
    refine (returns_bind ..).mpr ((returns_findApplication searches coherent timely).mono ?_)
    rintro application after ⟨kept, same⟩
    exact ⟨kept, congrArg CatalogueAnswer.application same⟩
  | fetchApplications repository =>
    refine (returns_bind ..).mpr ((returns_fetchApplications searches coherent repository timely).mono ?_)
    exact fun results after ⟨kept, listing⟩ => ⟨kept, results, rfl, listing⟩
  | listApplications repository =>
    refine (returns_bind ..).mpr ((returns_listApplications searches coherent timely).mono ?_)
    exact fun results after ⟨kept, listing⟩ => ⟨kept, results, rfl, listing⟩

end Catalogue

instance (helm : Helm) (contents : Charts) (repository name chartVersion : String) :
    Decidable (helm.Tells contents repository name chartVersion) :=
  decidable_of_iff (_ ∧ _) ⟨fun both => ⟨both.1, both.2⟩, fun tells => ⟨tells.missing, tells.whole⟩⟩

instance (helm : Helm) (contents : Charts) (call : CatalogueCall) (catalogue : Catalogue) :
    Decidable (call.Timely helm contents catalogue) :=
  match call with
  | .findApplication _ _ _ => inferInstanceAs (Decidable (_ ∧ (_ → _)))
  | .fetchApplications _ => inferInstanceAs (Decidable (∀ _ ∈ _, _))
  | .listApplications _ => inferInstanceAs (Decidable (ite _ _ _))

/-- Calls that are timely at the catalogues they start from are all answered. -/
theorem servedCalls_answered {helm : Helm} {outside : Outside} {contents : Charts} (searches : helm.Searches outside contents)
    (calls : List CatalogueCall) (start : Catalogue) (cold : start.applicationCache = ∅) (steady : Monotone start.clock)
    (timely : ∀ served ∈ servedCalls outside calls start, served.operation.Timely helm contents served.before) :
    ∀ served ∈ servedCalls outside calls start,
      ∃ answer, served.result = .ok answer ∧ served.operation.Answered contents answer := by
  refine serveAll_good (Coherent contents) (CatalogueCall.Timely helm contents)
    (fun call result => ∃ answer, result = Except.ok answer ∧ CatalogueCall.Answered contents call answer) ?_ (.cold cold steady) timely
  intro call catalogue coherent timely
  obtain ⟨answer, after, ran, kept, answered⟩ := returns_iff.mp (returns_serve searches coherent call timely)
  rw [attempt, ran]
  exact ⟨kept, answer, rfl, answered⟩

def webServer : Chart := ⟨"nginx", "2.0", "1.27", "A web server"⟩

def oldWebServer : Chart := ⟨"nginx", "1.0", "1.25", "A web server"⟩

def batchSystem : Chart := ⟨"condor", "1.0", "9.0", "A batch system that runs jobs on many other machines"⟩

def webCharts : Charts where
  charts repository :=
    if repository = "slate" then [webServer, oldWebServer] else if repository = "slate-dev" then [batchSystem] else []
  satisfies chartVersion chart := chartVersion = "" ∨ chart.chartVersion = chartVersion
  newest := List.head?
  newest_mem _ _ found := List.mem_of_mem_head? found

def webPlaces : List (String × String) := [("slate", "nginx"), ("slate-dev", "condor")]

def webLayout : HelmLayout where
  displayWidth := String.length
  cut width text := .ofList (text.toList.take (width - 3) ++ ['.', '.', '.'])
  empty := rfl
  heading := by decide
  cut_undivided width text plain := by
    have dots : '\t' ∉ ['.', '.', '.'] ∧ '\n' ∉ ['.', '.', '.'] := by decide
    simp only [Undivided, String.toList_ofList, List.mem_append, not_or]
    exact ⟨⟨fun member => plain.1 (List.mem_of_mem_take member), dots.1⟩,
      fun member => plain.2 (List.mem_of_mem_take member), dots.2⟩

def webHelm : Helm where
  majorVersion := 3
  layout := webLayout
  found target chartVersion := webPlaces.flatMap fun place =>
    if target = place.1 ++ "/" ++ place.2 then
      (webCharts.offered place.1 place.2 chartVersion).toList.map (Chart.row place.1)
    else []
  listing repository := (webCharts.listed repository).map (Chart.row repository)

def webOutside : Outside where
  run command arguments _ :=
    if command ≠ "helm" then .error "no such program"
    else match arguments with
    | [_, _, target, _, chartVersion] => .ok { output := webLayout.printed 50 (webHelm.found target chartVersion) }
    | [_, _, target, _] =>
      .ok { output := webLayout.printed 1024 <|
        if target = "slate/" then webHelm.listing "slate"
        else if target = "slate-dev/" then webHelm.listing "slate-dev" else [] }
    | _ => .ok { output := "version.BuildInfo\x7bVersion:\"v3.6.3\", GitCommit:\"\"\x7d\n" }

theorem webCharts_mem {repository : String} {chart : Chart} (member : chart ∈ webCharts.charts repository) :
    (repository, chart.name) ∈ webPlaces ∧ ∀ cell ∈ (chart.row repository).cells, Undivided cell := by
  have web : ∀ chart ∈ [webServer, oldWebServer], ("slate", chart.name) ∈ webPlaces ∧
      ∀ cell ∈ (chart.row "slate").cells, '\t' ∉ cell.toList ∧ '\n' ∉ cell.toList := by decide
  have batch : ∀ chart ∈ [batchSystem], ("slate-dev", chart.name) ∈ webPlaces ∧
      ∀ cell ∈ (chart.row "slate-dev").cells, '\t' ∉ cell.toList ∧ '\n' ∉ cell.toList := by decide
  have held : chart ∈ if repository = "slate" then [webServer, oldWebServer]
      else if repository = "slate-dev" then [batchSystem] else [] := member
  split at held
  next here => exact here ▸ web chart held
  next =>
    split at held
    next here => exact here ▸ batch chart held
    next => cases held

private theorem web_target {repository name : String} {place : String × String} (known : place ∈ webPlaces)
    (same : repository ++ "/" ++ name = place.1 ++ "/" ++ place.2) : place = (repository, name) := by
  have bare : ∀ place ∈ webPlaces, '/' ∉ place.1.toList ∧ '/' ∉ place.2.toList := by decide
  have shape : place.1.toList ++ '/' :: place.2.toList = repository.toList ++ '/' :: name.toList := by
    have texts := congrArg String.toList same
    simp only [String.toList_append] at texts
    rw [List.append_assoc, List.append_assoc] at texts
    exact texts.symm
  obtain ⟨first, -, last⟩ := (List.append_cons_inj_of_notMem (bare place known).1 (bare place known).2).mp shape
  exact Prod.ext (String.toList_injective first) (String.toList_injective last)

private theorem mem_webHelm_found {target chartVersion : String} {row : HelmRow} : row ∈ webHelm.found target chartVersion ↔
    ∃ place ∈ webPlaces, target = place.1 ++ "/" ++ place.2 ∧ ∃ chart,
      webCharts.offered place.1 place.2 chartVersion = some chart ∧ row = chart.row place.1 := by
  simp only [webHelm, List.mem_flatMap]
  refine exists_congr fun place => and_congr_right fun _ => ?_
  split
  next asked =>
    simp only [asked, true_and, List.mem_map, Option.mem_toList]
    exact exists_congr fun chart => and_congr_right fun _ => eq_comm
  next asked => simp only [asked, false_and, List.not_mem_nil]

theorem webHelm_searches : webHelm.Searches webOutside webCharts where
  version := by decide +kernel
  lookup target chartVersion := by
    refine ⟨⟨"", rfl⟩, fun row member => ?_⟩
    obtain ⟨place, -, -, chart, found, rfl⟩ := mem_webHelm_found.mp member
    exact (webCharts_mem (Charts.offered_name found).1).2
  named repository name chartVersion row _ := by
    rw [mem_webHelm_found]
    constructor
    · rintro ⟨place, known, same, found⟩
      rw [web_target known same] at found
      exact found
    · rintro ⟨chart, found, rfl⟩
      obtain ⟨member, rfl⟩ := Charts.offered_name found
      exact ⟨(repository, chart.name), (webCharts_mem member).1, rfl, chart, found, rfl⟩
  listing repository := by
    have ran : webOutside.run "helm" (fetchArguments 3 repository) [] =
        .ok { output := webLayout.printed 1024 <|
          if repository ++ "/" = "slate/" then webHelm.listing "slate"
          else if repository ++ "/" = "slate-dev/" then webHelm.listing "slate-dev" else [] } := rfl
    have rows : (if repository ++ "/" = "slate/" then webHelm.listing "slate"
        else if repository ++ "/" = "slate-dev/" then webHelm.listing "slate-dev" else []) = webHelm.listing repository := by
      split
      next same => exact congrArg webHelm.listing (String.append_left_inj "/" |>.mp same.symm)
      next other =>
        split
        next same => exact congrArg webHelm.listing (String.append_left_inj "/" |>.mp same.symm)
        next another =>
          have bare : webCharts.charts repository = [] := by
            have unlike : ¬ repository = "slate" := fun here => other (here ▸ rfl)
            have unlikeDev : ¬ repository = "slate-dev" := fun here => another (here ▸ rfl)
            exact (if_neg unlike).trans (if_neg unlikeDev)
          simp only [webHelm, Charts.listed, bare, List.map_nil, List.dedup_nil, List.filterMap_nil]
    refine ⟨⟨"", by rw [← rows]; exact ran⟩, fun row member => ?_⟩
    obtain ⟨chart, among, rfl⟩ := List.mem_map.mp member
    exact (webCharts_mem (Charts.offered_name (Charts.mem_listed.mp among)).1).2
  listed repository := ⟨webCharts.listed repository, .refl _, rfl⟩

/-- A look-up, a listing, a look-up of what is listed, and a listing from the cache. -/
theorem servedCalls_answered_web : webHelm.Searches webOutside webCharts ∧
    ∀ served ∈ servedCalls webOutside [.findApplication "slate" "nginx" "2.0", .fetchApplications "slate",
        .findApplication "slate" "nginx" "", .listApplications "slate"] {},
      ∃ answer, served.result = .ok answer ∧ served.operation.Answered webCharts answer :=
  ⟨webHelm_searches, servedCalls_answered webHelm_searches _ {} rfl (fun _ _ _ => Nat.le_refl _) (by decide +kernel)⟩

theorem answered_last {calls : List CatalogueCall} {call : CatalogueCall} {answer : CatalogueAnswer}
    (last : (servedCalls webOutside calls {}).getLast?.map (fun served => (served.operation, served.result)) = some (call, .ok answer))
    (answered : ∀ served ∈ servedCalls webOutside calls {},
      ∃ answer, served.result = .ok answer ∧ served.operation.Answered webCharts answer) : call.Answered webCharts answer := by
  obtain ⟨served, found, same⟩ := Option.map_eq_some_iff.mp last
  obtain ⟨right, result, holds⟩ := answered served (List.mem_of_getLast? found)
  obtain ⟨operation, outcome⟩ := Prod.mk.inj same
  rw [operation, Except.ok.inj (result.symm.trans outcome)] at holds
  exact holds

/-- After a listing, a look-up of the older version gets the newer one. If the older one is
looked up before, the listing shows both. A look-up cuts a long description. -/
theorem servedCalls_unanswered : webHelm.Searches webOutside webCharts ∧
    (¬ ∀ served ∈ servedCalls webOutside [.fetchApplications "slate", .findApplication "slate" "nginx" "1.0"] {},
      ∃ answer, served.result = .ok answer ∧ served.operation.Answered webCharts answer) ∧
    (¬ ∀ served ∈ servedCalls webOutside [.findApplication "slate" "nginx" "1.0", .fetchApplications "slate",
        .listApplications "slate"] {}, ∃ answer, served.result = .ok answer ∧ served.operation.Answered webCharts answer) ∧
    ¬ ∀ served ∈ servedCalls webOutside [.findApplication "slate-dev" "condor" "1.0"] {},
      ∃ answer, served.result = .ok answer ∧ served.operation.Answered webCharts answer := by
  refine ⟨webHelm_searches, fun answered => ?_, fun answered => ?_, fun answered => ?_⟩
  · have newer : CatalogueCall.Answered webCharts (.findApplication "slate" "nginx" "1.0") (.application webServer.application) :=
      answered_last (by decide +kernel) answered
    exact absurd (CatalogueAnswer.application.inj newer) (by decide +kernel)
  · obtain ⟨applications, same, listing⟩ : CatalogueCall.Answered webCharts (.listApplications "slate")
        (.applications [webServer.application, oldWebServer.application]) := answered_last (by decide +kernel) answered
    rw [← CatalogueAnswer.applications.inj same] at listing
    exact absurd listing.length_eq (by decide +kernel)
  · have cut : CatalogueCall.Answered webCharts (.findApplication "slate-dev" "condor" "1.0")
        (.application ⟨true, "condor", "9.0", "1.0", "A batch system that runs jobs on many other mac..."⟩) :=
      answered_last (by decide +kernel) answered
    exact absurd (CatalogueAnswer.application.inj cut) (by decide +kernel)

end Slate
