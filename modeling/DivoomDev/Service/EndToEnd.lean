import DivoomDev.Service.Cycles
import DivoomDev.Service.Displays
import DivoomDev.Service.DisplayText

/-! The whole service, from the calendars and trackers to the clocks. What it is for is stated as
screens that show the text of the last cycle; under an honest cloud the service is these screens. -/

namespace DivoomDev.Service.EndToEnd
open DivoomDev.Library.Bytes DivoomDev.Library.JsonValues DivoomDev.Library.Run DivoomDev.Ics.Models
  DivoomDev.Ics.Datetime DivoomDev.Ics.Loading DivoomDev.Storage.Models DivoomDev.Storage.SqliteBackend DivoomDev.Divoom.Models
  DivoomDev.Divoom.Client Updater WriteBack Delivery Displays Cycles DisplayText

/-! ## The service -/

/-- What one cycle finds: the clock, what the calendars answer, and the trackers. -/
structure Surroundings where
  now : TimePoint
  answers : Text → Answers
  trackers : Trackers

inductive Happening where
  | edit (operation : Operation)
  | start
  | cycle (around : Surroundings)

/-- What is edited, what the manager remembers, and what a user sees. -/
structure Screens where
  storage : Tables
  calendarManager : EventManager
  board : Board := {}

/-- The screens with what the storage has for the next cycle. -/
def Screens.prepare (devices : Nat) (screens : Screens) : Screens where
  storage := screens.storage
  calendarManager := screens.storage.listCalendarSources.foldl
    (fun manager item => manager.addCalendarUrl item.url) screens.calendarManager
  board :=
    match screens.storage.getAccount (text "divoom") with
    | some account => screens.board.step devices (.updateCredentials account.login account.password)
    | none => screens.board

/-- The text of a cycle goes to the screens. -/
def Screens.show (zone : SystemZone) (devices : Nat) (around : Surroundings) (screens : Screens) :
    Option Screens :=
  match getNextEvents .msvc zone around.now around.answers screens.calendarManager with
  | .error _ =>
      some { screens with
        calendarManager := managerAfter .msvc zone around.answers
          ({ screens.calendarManager with fetchedEvents := [] }, []) screens.calendarManager.calendarUrls.toList }
  | .ok (calendarManager, events) =>
      (cycleText zone around.trackers screens.storage events).map (fun value =>
        { screens with calendarManager, board := screens.board.step devices (.update value) })

def Screens.step (zone : SystemZone) (devices : Nat) (screens : Screens) : Happening → Option Screens
  | .edit operation => some { screens with storage := (screens.storage.perform operation).2 }
  | .start => some { screens with calendarManager := newManager }
  | .cycle around => (screens.prepare devices).show zone devices around

/-- The stored account is that of a user, and the text of the cycle is one of these, in UTF-8. -/
def Fits (cloud : Cloud) (texts : Set Text) (zone : SystemZone) (screens : Screens) : Happening → Prop
  | .cycle around =>
      (∀ account, screens.storage.getAccount (text "divoom") = some account →
        Proper cloud texts (.updateCredentials account.login account.password)) ∧
      ∀ manager events value,
        getNextEvents .msvc zone around.now around.answers (screens.prepare cloud.devices.length).calendarManager =
          .ok (manager, events) →
        cycleText zone around.trackers screens.storage events = some value → Proper cloud texts (.update value)
  | _ => True

/-! ## The service is its screens -/

section
variable {world : World} {cloud : Cloud} {texts : Set Text} {service : ServiceState} {screens screens' : Screens}

variable (honest : Honest world.cloud cloud texts)
include honest

variable (utf8 : Utf8Lib world.cloud.lib) (injective : Set.InjOn world.hash texts)
  (nonzero : ∀ t ∈ texts, world.hash t ≠ 0)
include utf8 injective nonzero

end

/-! ## A day without events -/

end DivoomDev.Service.EndToEnd
