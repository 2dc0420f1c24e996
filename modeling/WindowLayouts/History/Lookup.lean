import WindowLayouts.History.Store

/- Looking up what a window chose: in this session, else last by its class and title, else last by
   its class. A window without a class has no history, not even in the session. What the session
   knows is reported with the number of the window, and not answered where that is too long. -/
namespace WindowLayouts.Store

/-- The layout that a window chose, and what is reported about the search. -/
def lookup (s : Store) (windowId : Int) (windowClass title : Text) :
    Except Numeral.Unshowable (Option Text) × Trace :=
  if windowClass.isEmpty then (.ok none, [])
  else match Keyed.get? windowId s.session with
    | some id =>
      match Numeral.shown windowId with
      | .error reason => (.error reason, [])
      | .ok shown =>
        (.ok (some id), storeRecord .debug
          (text "Found by windowId: " ++ shown ++ text " -> " ++ id))
    | none =>
      let classHash := hashText windowClass
      let titleHash := hashText title
      let hashing := hashTrace windowClass ++ hashTrace title
      match s.index.lookupTitle classHash titleHash with
      | some id =>
        (.ok (some id), hashing ++ storeRecord .debug
          (text "Found by titleHash: " ++ classHash ++ text ":" ++ titleHash ++ text " -> " ++ id))
      | none =>
        match s.index.lookupClass classHash with
        | some id =>
          (.ok (some id), hashing ++ storeRecord .debug
            (text "Found by wmClassHash: " ++ classHash ++ text " -> " ++ id))
        | none =>
          (.ok none, hashing ++ storeRecord .debug
            (text "No history for wmClass: " ++ windowClass))

/-- The layouts ranked for a class, the latest first. -/
def recent (s : Store) (windowClass : Text) : List Text :=
  if windowClass.isEmpty then [] else s.index.retained (hashText windowClass)

def recentTrace (windowClass : Text) : Trace :=
  if windowClass.isEmpty then [] else hashTrace windowClass

end WindowLayouts.Store
