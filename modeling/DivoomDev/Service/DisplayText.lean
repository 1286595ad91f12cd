import DivoomDev.Jenkins.UserBuilds
import DivoomDev.Jira.Client
import DivoomDev.Service.EventFormatter
import DivoomDev.Storage.SqliteBackend

/-! The text of a cycle: the events of the calendar, the issues of Jira and the builds of Jenkins,
as far as they are set up in the storage. -/

namespace DivoomDev.Service.DisplayText
open DivoomDev.Library.Bytes DivoomDev.Library.JsonValues DivoomDev.Library.Separated DivoomDev.Library.Loop
  DivoomDev.Ics.Models DivoomDev.Ics.Datetime DivoomDev.Ics.TextUtils DivoomDev.Storage.Models DivoomDev.Storage.SqliteBackend
  DivoomDev.Jenkins DivoomDev.Jira.Client EventFormatter

/-! ## The text -/

/-- What answers in one cycle, next to the calendars and the cloud: Jira and Jenkins. -/
structure Trackers where
  lib : JsonLib
  memory : Vector UInt8 3
  jira : Jira.Client.Request → Jira.Client.Response
  jenkins : UserBuilds.Request → UserBuilds.Response

/-- The default message of `event_formatter`, which no line feed ends. -/
def noEvents : Text := text " - Нет событий в календаре"

def noIssues : Text := text " - Нет задач в Jira"

def noBuilds : Text := text " - Нет сборок в Jenkins"

def issueText (item : Issue) : Text := item.key ++ text ": " ++ item.summary

def buildText (item : Builds.BuildInfo) : Text :=
  decimal item.number ++ text ": " ++ item.result ++ text " (" ++ item.status ++ text ")"

def jobs : List Text :=
  [text "build/job/custom/job/windows/job/git", text "build/job/custom/job/debian/job/git",
    text "build/job/custom/job/rockchip/job/git", text "build/job/custom/job/lnvr/job/git"]

/-- The issues that Jira returns, where it is set up; `none` where that is undefined. -/
def jiraIssues (trackers : Trackers) (storage : Tables) : Option (Option (List Issue)) :=
  match storage.getAccount (text "jira"), storage.getMeta (text "jira_url") with
  | some account, some url =>
      let config : Config := { baseUrl := url, email := account.login, apiToken := account.password }
      (getActiveUserIssues trackers.lib (trackers.jira (searchRequest config [] []))).map some
  | _, _ => some none

/-- The builds of all jobs that the user started, where Jenkins is set up. -/
def jenkinsBuilds (trackers : Trackers) (storage : Tables) : Option (List Builds.BuildInfo) :=
  match storage.getAccount (text "jenkins"), storage.getMeta (text "jenkins_url") with
  | some account, some url =>
      let config : UserBuilds.Config := { baseUrl := url, username := account.login, apiToken := account.password }
      some (jobs.foldl (fun result job => result ++ UserBuilds.getUserBuilds trackers.lib config.username
        (trackers.jenkins (UserBuilds.buildsRequest trackers.memory config job 100))) [])
  | _, _ => none

def addIssues (s : Text) (result : List Issue) : Text :=
  if result ≠ [] then result.foldl (fun s item => s ++ (issueText item ++ [lineFeed])) s
  else s ++ (noIssues ++ [lineFeed])

def addBuilds (s : Text) (result : List Builds.BuildInfo) : Text :=
  if result ≠ [] then result.foldl (fun s item => s ++ (buildText item ++ [lineFeed])) s
  else s ++ (noBuilds ++ [lineFeed])

/-- The text that `process_cycle` makes; nothing where the behaviour of a client is undefined. -/
def cycleText (zone : SystemZone) (trackers : Trackers) (storage : Tables) (events : List ScheduledEvent) :
    Option Text := do
  let s := format zone noEvents events
  let s := match ← jiraIssues trackers storage with
    | some result => addIssues s result
    | none => s
  pure (match jenkinsBuilds trackers storage with
    | some result => addBuilds s result
    | none => s)

/-! ## Its lines -/

def issueLines : Option (List Issue) → List Text
  | none => []
  | some [] => [noIssues]
  | some issues => issues.map issueText

def buildLines : Option (List Builds.BuildInfo) → List Text
  | none => []
  | some [] => [noBuilds]
  | some builds => builds.map buildText

/-- A notice in front of the first line. -/
def glued (notice : Text) : List Text → List Text
  | [] => [notice]
  | line :: lines => (notice ++ line) :: lines

/-- The lines of a cycle: one for each event, issue and build, or a notice that there is none. The
notice that there are no events has no line of its own. -/
def cycleLines (zone : SystemZone) (events : List ScheduledEvent) (issues : Option (List Issue))
    (builds : Option (List Builds.BuildInfo)) : List Text :=
  match events with
  | [] => glued noEvents (issueLines issues ++ buildLines builds)
  | events => events.map (fun event => eventText zone event.toEvent) ++ (issueLines issues ++ buildLines builds)

/-- No event, issue or build breaks its line. -/
structure Unbroken (events : List ScheduledEvent) (issues : Option (List Issue))
    (builds : Option (List Builds.BuildInfo)) : Prop where
  events : ∀ event ∈ events, lineFeed ∉ event.summary
  issues : ∀ list ∈ issues, ∀ issue ∈ list, lineFeed ∉ issue.key ∧ lineFeed ∉ issue.summary
  builds : ∀ list ∈ builds, ∀ build ∈ list, lineFeed ∉ build.status

theorem addIssues_joinLines (s : Text) (result : List Issue) :
    addIssues s result = s ++ joinLines lineFeed (issueLines (some result)) := by
  cases result with
  | nil => simp [addIssues, issueLines, joinLines]
  | cons issue rest =>
    rw [addIssues, if_pos (List.cons_ne_nil _ _), List.foldl_append_eq_append]
    simp only [issueLines, joinLines, List.flatMap_map]
    rfl

theorem addBuilds_joinLines (s : Text) (result : List Builds.BuildInfo) :
    addBuilds s result = s ++ joinLines lineFeed (buildLines (some result)) := by
  cases result with
  | nil => simp [addBuilds, buildLines, joinLines]
  | cons build rest =>
    rw [addBuilds, if_pos (List.cons_ne_nil _ _), List.foldl_append_eq_append]
    simp only [buildLines, joinLines, List.flatMap_map]
    rfl

/-- What is shown of the events, issues and builds. -/
def displayed (zone : SystemZone) (events : List ScheduledEvent) (issues : Option (List Issue))
    (builds : Option (List Builds.BuildInfo)) : Text :=
  format zone noEvents events ++ joinLines lineFeed (issueLines issues ++ buildLines builds)

theorem cycleText_eq (zone : SystemZone) (trackers : Trackers) (storage : Tables) (events : List ScheduledEvent) :
    cycleText zone trackers storage events = (jiraIssues trackers storage).map (fun issues =>
      displayed zone events issues (jenkinsBuilds trackers storage)) := by
  unfold cycleText
  cases jiraIssues trackers storage with
  | none => rfl
  | some issues =>
    cases issues <;> cases jenkinsBuilds trackers storage <;>
      simp [displayed, addIssues_joinLines, addBuilds_joinLines, issueLines, buildLines, joinLines]

theorem lineFeed_issueText (issue : Issue) :
    lineFeed ∉ issueText issue ↔ lineFeed ∉ issue.key ∧ lineFeed ∉ issue.summary := by
  have colon : lineFeed ∉ text ": " := by decide
  simp [issueText, colon]

theorem lineFeed_decimal (value : Int) : lineFeed ∉ decimal value := by
  intro member
  rcases decimal_bytes member with sign | digit
  · exact absurd sign (by decide)
  · exact absurd digit (by decide)

theorem lineFeed_buildText {build : Builds.BuildInfo} (same : build.result = build.status) :
    lineFeed ∉ buildText build ↔ lineFeed ∉ build.status := by
  have colon : lineFeed ∉ text ": " := by decide
  have opening : lineFeed ∉ text " (" := by decide
  have closing : lineFeed ∉ text ")" := by decide
  simp [buildText, same, lineFeed_decimal, colon, opening, closing]

theorem lineFeed_eventText (zone : SystemZone) (event : Event) :
    lineFeed ∉ eventText zone event ↔ lineFeed ∉ event.summary := by
  rw [← List.count_eq_zero, count_eventText, List.count_eq_zero]

theorem issueLines_whole (issues : Option (List Issue)) :
    (∀ line ∈ issueLines issues, lineFeed ∉ line) ↔
      ∀ list ∈ issues, ∀ issue ∈ list, lineFeed ∉ issue.key ∧ lineFeed ∉ issue.summary := by
  have notice : lineFeed ∉ noIssues := by decide +kernel
  match issues with
  | none => simp [issueLines]
  | some [] => simp [issueLines, notice]
  | some (issue :: rest) =>
    simp only [issueLines, List.forall_mem_map, lineFeed_issueText, Option.mem_some_iff, forall_eq']

theorem buildLines_whole {builds : Option (List Builds.BuildInfo)}
    (same : ∀ list ∈ builds, ∀ build ∈ list, build.result = build.status) :
    (∀ line ∈ buildLines builds, lineFeed ∉ line) ↔
      ∀ list ∈ builds, ∀ build ∈ list, lineFeed ∉ build.status := by
  have notice : lineFeed ∉ noBuilds := by decide +kernel
  match builds with
  | none => simp [buildLines]
  | some [] => simp [buildLines, notice]
  | some (build :: rest) =>
    simp only [buildLines, List.forall_mem_map, Option.mem_some_iff, forall_eq'] at same ⊢
    exact forall₂_congr (fun item member => lineFeed_buildText (same item member))

/-- Each build that Jenkins returns has its result as its status. -/
theorem jenkinsBuilds_result {trackers : Trackers} {storage : Tables} :
    ∀ list ∈ jenkinsBuilds trackers storage, ∀ build ∈ list, build.result = build.status := by
  intro list returned build member
  unfold jenkinsBuilds at returned
  split at returned
  · next account url _ _ =>
    simp only [Option.mem_some_iff] at returned
    subst returned
    rw [List.foldl_append_eq_append, List.nil_append] at member
    obtain ⟨job, _, inJob⟩ := List.mem_flatMap.mp member
    unfold UserBuilds.getUserBuilds at inJob
    split_ifs at inJob
    · cases inJob
    · cases inJob
    · cases inJob
    · obtain ⟨buildJson, _, visited⟩ := of_mem_scan inJob
      exact UserBuilds.readBuild_result (Builds.readBuild_of_visit visited)
  · cases returned

/-- The text is its lines, or the notice alone. -/
theorem displayed_lines (zone : SystemZone) (events : List ScheduledEvent) (issues : Option (List Issue))
    (builds : Option (List Builds.BuildInfo)) :
    displayed zone events issues builds = joinLines lineFeed (cycleLines zone events issues builds) ∨
      (displayed zone events issues builds = noEvents ∧ cycleLines zone events issues builds = [noEvents]) := by
  cases events with
  | cons event rest =>
    left
    rw [displayed, format_joinLines zone noEvents (List.cons_ne_nil _ _), joinLines, joinLines, joinLines,
      ← List.flatMap_append]
    rfl
  | nil =>
    rw [displayed, cycleLines]
    cases issueLines issues ++ buildLines builds with
    | nil => exact .inr ⟨by simp [format, formatEvents, joinLines], rfl⟩
    | cons line lines =>
      left
      simp [format, formatEvents, glued, joinLines]

theorem cycleLines_whole (zone : SystemZone) (events : List ScheduledEvent) (issues : Option (List Issue))
    {builds : Option (List Builds.BuildInfo)}
    (same : ∀ list ∈ builds, ∀ build ∈ list, build.result = build.status) :
    (∀ line ∈ cycleLines zone events issues builds, lineFeed ∉ line) ↔ Unbroken events issues builds := by
  have notice : lineFeed ∉ noEvents := by decide +kernel
  have others : (∀ line ∈ issueLines issues ++ buildLines builds, lineFeed ∉ line) ↔
      (∀ list ∈ issues, ∀ issue ∈ list, lineFeed ∉ issue.key ∧ lineFeed ∉ issue.summary) ∧
        ∀ list ∈ builds, ∀ build ∈ list, lineFeed ∉ build.status := by
    rw [List.forall_mem_append, issueLines_whole, buildLines_whole same]
  cases events with
  | nil =>
    have gluing : (∀ line ∈ glued noEvents (issueLines issues ++ buildLines builds), lineFeed ∉ line) ↔
        ∀ line ∈ issueLines issues ++ buildLines builds, lineFeed ∉ line := by
      cases issueLines issues ++ buildLines builds <;> simp [glued, notice]
    rw [cycleLines, gluing, others]
    exact ⟨fun whole => ⟨by simp, whole.1, whole.2⟩, fun unbroken => ⟨unbroken.issues, unbroken.builds⟩⟩
  | cons event rest =>
    rw [cycleLines, List.forall_mem_append, others, List.forall_mem_map]
    · have summaries : (∀ e ∈ event :: rest, lineFeed ∉ eventText zone e.toEvent) ↔
          ∀ e ∈ event :: rest, lineFeed ∉ e.summary :=
        forall₂_congr (fun e _ => lineFeed_eventText zone e.toEvent)
      rw [summaries]
      exact ⟨fun whole => ⟨whole.1, whole.2.1, whole.2.2⟩,
        fun unbroken => ⟨unbroken.events, unbroken.issues, unbroken.builds⟩⟩
    · simp

/-- The text of a cycle is that of the events and of what Jira and Jenkins return, and each of them
has its line exactly where none breaks one. -/
theorem cycleText_lines_iff (zone : SystemZone) (trackers : Trackers) (storage : Tables)
    (events : List ScheduledEvent) :
    cycleText zone trackers storage events = (jiraIssues trackers storage).map (fun issues =>
        displayed zone events issues (jenkinsBuilds trackers storage)) ∧
      ∀ issues, getlines lineFeed (displayed zone events issues (jenkinsBuilds trackers storage)) =
          cycleLines zone events issues (jenkinsBuilds trackers storage) ↔
        Unbroken events issues (jenkinsBuilds trackers storage) := by
  refine ⟨cycleText_eq zone trackers storage events, fun issues => ?_⟩
  rw [← cycleLines_whole zone events issues jenkinsBuilds_result]
  constructor
  · intro lines line member
    rw [← lines] at member
    exact not_mem_of_mem_getlines member
  · intro whole
    rcases displayed_lines zone events issues (jenkinsBuilds trackers storage) with joined | ⟨alone, single⟩
    · have read := getlines_joinLines whole []
      rwa [List.append_nil, getlines, List.append_nil, ← joined] at read
    · rw [alone, single]
      exact getlines_last (by decide +kernel) (by decide +kernel)

end DivoomDev.Service.DisplayText
