import ServiceFramework.Base.Json
import ServiceFramework.Lib.OrderedTable
import Mathlib.Data.String.Basic

/-!
# The configuration file and its readers

`ConfigManager` (`base/config_manager.cc`) keeps the readers of the configuration under the keys they
are registered for. It opens the file once, and gives each reader whose key is there the value under
it, in ascending order of the keys. An exception of a reader ends the round, and the readers before
it have set what they read.
-/

namespace ServiceFramework.Base

open Handler

/-- `config_items_` of `ConfigManager`. The readers are named by `I`. -/
structure ConfigManager (I : Type) where
  configItems : Table String I := ∅

namespace ConfigManager

variable {I σ : Type}

/-- `Register`. A key that has a reader keeps it. -/
def register (m : ConfigManager I) (itemName : String) (item : I) : ConfigManager I where
  configItems := m.configItems.insertNew itemName item

/-- The readers in the order of the loop over `config_items_`. -/
def handlers (m : ConfigManager I) (setConf : I → SetConf σ) : List (Handler String Json String σ) :=
  m.configItems.ascending.map fun it => { key := it.1, set := setConf it.2 }

/-- `OnConfigDataUpdated`, for a text whose value is `configJson`. -/
def onConfigDataUpdated (m : ConfigManager I) (setConf : I → SetConf σ) (configJson : Json) (s : σ) :
    Except String Bool × σ :=
  match handle configJson.find (m.handlers setConf) s with
  | (.ok (), s) => (.ok true, s)
  | (.error e, s) => (.error e, s)

/-- `OnConfigUpdated`. A file that cannot be opened is `none`; of one that can, `files` has the
value of its text, or the exception that the parser throws. -/
def onConfigUpdated (m : ConfigManager I) (setConf : I → SetConf σ)
    (files : String → Option (Except String Json)) (configParam : String) (s : σ) :
    Except String Bool × σ :=
  match files configParam with
  | none => (.ok false, s)
  | some (.error e) => (.error e, s)
  | some (.ok configJson) => m.onConfigDataUpdated setConf configJson s

/-- `Initialize`. -/
def initializeWith (m : ConfigManager I) (setConf : I → SetConf σ)
    (files : String → Option (Except String Json)) (param : String) (s : σ) :
    Except String Bool × σ :=
  if param = "" then (.ok false, s) else m.onConfigUpdated setConf files param s

/-- What a reader answers does not depend on the state. -/
def Decided (setConf : I → SetConf σ) : Prop := ∀ i v s s', (setConf i v s).1 = (setConf i v s').1

theorem decided_handlers (m : ConfigManager I) {setConf : I → SetConf σ} (h : Decided setConf) :
    ∀ handler ∈ m.handlers setConf, handler.Decided := by
  intro handler hmem
  obtain ⟨it, -, rfl⟩ := List.mem_map.1 hmem
  exact h it.2

/-- The readers accept a value: each whose key is there accepts the value under it. -/
def Accepts (m : ConfigManager I) (setConf : I → SetConf σ) (configJson : Json) : Prop :=
  ∀ key item, m.configItems.find key = some item → ∀ v, configJson.find key = some v →
    ∀ s, (setConf item v s).1 = .ok ()

theorem accepts_iff {m : ConfigManager I} {setConf : I → SetConf σ} {configJson : Json} :
    m.Accepts setConf configJson ↔ ∀ handler ∈ m.handlers setConf, handler.Fits configJson.find := by
  constructor
  · intro h handler hmem
    obtain ⟨⟨key, item⟩, hit, rfl⟩ := List.mem_map.1 hmem
    exact h key item (Table.mem_ascending.1 hit)
  · intro h key item hfind
    exact h _ (List.mem_map_of_mem (Table.mem_ascending.2 hfind))

/-- The file is read exactly if the readers accept it; else an exception of one of them ends it. -/
theorem onConfigDataUpdated_cases (m : ConfigManager I) {setConf : I → SetConf σ}
    (hd : Decided setConf) (configJson : Json) (s : σ) :
    m.Accepts setConf configJson ∧ m.onConfigDataUpdated setConf configJson s =
        (.ok true, (m.handlers setConf).foldl (fun s h => h.step configJson.find s) s) ∨
      ¬m.Accepts setConf configJson ∧ ∃ e, (m.onConfigDataUpdated setConf configJson s).1 = .error e := by
  rw [accepts_iff, onConfigDataUpdated]
  rcases handle_cases (m.decided_handlers hd) configJson.find s with hall |
    ⟨pre, h, post, v, e, hsplit, -, hv, herror, hr⟩
  · exact .inl ⟨hall, by rw [handle_of_fits hall]⟩
  · refine .inr ⟨fun hall => ?_, e, by rw [hr]⟩
    have hfits := hall h (by simp [hsplit]) v hv s
    rw [herror s] at hfits
    cases hfits

end ConfigManager

end ServiceFramework.Base
