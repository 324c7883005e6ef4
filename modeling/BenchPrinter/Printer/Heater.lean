import BenchPrinter.Number.Quantity

/-!
The two heaters and what is known about each of them: its temperature, its target, the time of its
last update and the constants that it heats and cools with.
-/

namespace BenchPrinter

inductive HeaterId where
  | hotend
  | bed
deriving DecidableEq

namespace HeaterId

def all : List HeaterId := [hotend, bed]

theorem mem_all (id : HeaterId) : id ∈ all := by
  cases id <;> simp [all]

/-- The label marks the heater in a report. -/
def label : HeaterId → String
  | hotend => "T"
  | bed => "B"

def name : HeaterId → String
  | hotend => "hotend"
  | bed => "bed"

end HeaterId

/-- The rates are degrees per second; the noise is the width of the jitter at the target. -/
structure HeaterProfile (α : Type) where
  heatRate : α
  coolRate : α
  noise : α
deriving BEq, DecidableEq

/-- The bed heats more slowly than the hotend. -/
def HeaterProfile.standard {α : Type} [Quantity α] : HeaterId → HeaterProfile α
  | .hotend => ⟨0.6, 0.8, 0.5⟩
  | .bed => ⟨0.2, 0.8, 0.5⟩

/-- A temperature of zero means that the heater has never been updated. -/
structure Heater (α : Type) where
  value : α
  target : α
  lastUpdate : Option UInt64
  profile : HeaterProfile α
deriving BEq

namespace Heater

variable {α : Type} [Quantity α]

def cold (profile : HeaterProfile α) : Heater α := ⟨0.0, 0.0, none, profile⟩

def isInitialized (heater : Heater α) : Bool :=
  !(heater.value == 0.0)

end Heater

structure Heaters (α : Type) where
  hotend : Heater α
  bed : Heater α
deriving BEq

namespace Heaters

variable {α : Type}

def get (heaters : Heaters α) : HeaterId → Heater α
  | .hotend => heaters.hotend
  | .bed => heaters.bed

def set (heaters : Heaters α) (id : HeaterId) (heater : Heater α) : Heaters α :=
  match id with
  | .hotend => { heaters with hotend := heater }
  | .bed => { heaters with bed := heater }

@[simp] theorem get_set (heaters : Heaters α) (id other : HeaterId) (heater : Heater α) :
    (heaters.set id heater).get other = if other = id then heater else heaters.get other := by
  cases id <;> cases other <;> simp [get, set]

/-- The other heater keeps its target. -/
def aim (heaters : Heaters α) (id : HeaterId) (target : α) : Heaters α :=
  heaters.set id { heaters.get id with target := target }

end Heaters

end BenchPrinter
