import Mathlib.Data.List.Basic

/-! `games::ac::rogue::Language`, its bitfields, and the game ids of the regions they select. -/

namespace PatchFix.Rogue

inductive Language where
  | none | english | french | spanish | polish | german | chineseTrad | hungarian | italian
  | japanese | czech | korean | russian | dutch | danish | norwegian | swedish | portuguese
  | brazil | finnish | arabic | mexican | locTest
  deriving DecidableEq, Repr

namespace Language

def toUnderlying : Language → UInt32
  | none => 0
  | english => 1
  | french => 2
  | spanish => 3
  | polish => 4
  | german => 5
  | chineseTrad => 6
  | hungarian => 7
  | italian => 8
  | japanese => 9
  | czech => 10
  | korean => 11
  | russian => 12
  | dutch => 13
  | danish => 14
  | norwegian => 15
  | swedish => 16
  | portuguese => 17
  | brazil => 18
  | finnish => 19
  | arabic => 20
  | mexican => 21
  | locTest => 22

def all : List Language :=
  [none, english, french, spanish, polish, german, chineseTrad, hungarian, italian, japanese,
    czech, korean, russian, dutch, danish, norwegian, swedish, portuguese, brazil, finnish,
    arabic, mexican, locTest]

theorem all_at (language : Language) :
    all[language.toUnderlying.toNat]? = some language := by
  cases language <;> rfl

theorem toUnderlying_inj {first second : Language} :
    first.toUnderlying = second.toUnderlying ↔ first = second := by
  constructor
  · intro same
    have here := all_at first
    rw [same, all_at second] at here
    exact (Option.some.inj here).symm
  · intro same
    rw [same]

end Language

def bit (language : Language) : UInt32 := 1 <<< language.toUnderlying

def has (mask : UInt32) (language : Language) : Bool := mask &&& bit language != 0

def kAllMenu : UInt32 :=
  bit .english ||| bit .french ||| bit .spanish ||| bit .polish ||| bit .german |||
    bit .chineseTrad ||| bit .italian ||| bit .japanese ||| bit .korean ||| bit .russian |||
    bit .dutch ||| bit .brazil ||| bit .arabic ||| bit .mexican

def kAllAudio : UInt32 :=
  bit .english ||| bit .french ||| bit .spanish ||| bit .german ||| bit .italian |||
    bit .russian ||| bit .brazil

inductive GameId where
  | uplayWw | steamWw | uplayRu | steamRu | uplayAsia | steamAsia
  deriving DecidableEq, Repr

def GameId.toUnderlying : GameId → UInt16
  | uplayWw => 0x37F
  | steamWw => 0x3A6
  | uplayRu => 0x4A2
  | steamRu => 0x4A3
  | uplayAsia => 0x67D
  | steamAsia => 0x67E

/-- `get_game_id` of the README, over the subtitle languages the game loaded. -/
def region (languages : UInt32) (isSteam : Bool) : UInt16 :=
  if has languages .russian then if isSteam then 0x4A3 else 0x4A2
  else if has languages .korean && has languages .chineseTrad then
    if isSteam then 0x67E else 0x67D
  else if isSteam then 0x3A6 else 0x37F

inductive Sku where
  | russian | asia | worldwide
  deriving DecidableEq, Repr

def sku (languages : UInt32) : Sku :=
  if has languages .russian then .russian
  else if has languages .korean && has languages .chineseTrad then .asia
  else .worldwide

theorem region_eq_iff (first second : UInt32) (isSteam : Bool) :
    region first isSteam = region second isSteam ↔ sku first = sku second := by
  unfold region sku
  cases isSteam <;> cases has first .russian <;> cases has second .russian <;>
    cases has first .korean && has first .chineseTrad <;>
    cases has second .korean && has second .chineseTrad <;> decide

theorem sku_kAllMenu : sku kAllMenu = .russian := by decide

end PatchFix.Rogue
