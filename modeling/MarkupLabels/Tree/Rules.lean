import MarkupLabels.Config.Fault

namespace MarkupLabels

structure Rules where
  skipStructural : Bool
  structural : List Value
deriving Repr, Inhabited

namespace Rules

def defaultStructural : List CodePoints := List.map CodePoints.ofString [
  "breadcrumbitem",
  "breadcrumbheading",
  "accordionitem",
  "accordioncontent",
  "accordiontoggle",
  "cardbody",
  "cardheader",
  "cardtitle",
  "actionlistitem",
  "modalcontent",
  "modalheader",
  "modalfooter",
  "modalbody",
  "datalistaction",
  "drawermain",
  "drawerpanel",
  "drawercontent",
  "drawerbody",
  "drawerhead",
  "draweractions",
  "drawersection",
  "drawersectiongroup",
  "duallistselectorlist",
  "emptystateheader",
  "emptystateicon",
  "emptystatebody",
  "emptystatefooter",
  "emptystateactions",
  "expandablesectiontoggle",
  "expandablesectioncontent",
  "helpertext",
  "mastheadbrand",
  "menulist",
  "menugroup",
  "menusearch",
  "menusearchinput",
  "selectoptiongroup",
  "notificationdrawerheader",
  "notificationdrawerbody",
  "overflowmenucontent"]

def standard : Rules where
  skipStructural := false
  structural := defaultStructural.map fun s => .text s.lowercase

def ofConfig (config : Value) : Except Fault Rules := do
  let config := if config.isTrue then config else .mapping []
  let rules := (← config.entry? "rules").getD (.mapping [])
  let skip ← rules.entry? "skip_structural_children"
  let structural ← rules.entry? "structural_children"
  let keywords ← (structural.getD (.list (defaultStructural.map .text))).items
  return {
    skipStructural := (skip.getD (.bool false)).isTrue
    structural := ← keywords.mapM Value.lower }

def skips (r : Rules) (name : String) : Except Fault Bool :=
  if r.skipStructural then Value.anyWithin (Text.lowercase name) r.structural else .ok false

end Rules

end MarkupLabels
