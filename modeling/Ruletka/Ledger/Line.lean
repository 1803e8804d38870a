/-
The events' lines as `serde_json` writes them: one compact object, fields in
the order of `StarEvent`.

`compactCodec` reads back exactly these lines. The real reader also takes
white space, another order, unknown fields and defaults for missing ones;
the results about the ledger ask no more of a codec than this one has.
-/
import Ruletka.Ledger.Store
import Ruletka.Lib.Json

namespace Ruletka.Ledger

open Text Json

/-- The fields of the object. -/
def StarEvent.fields (ev : StarEvent) : List (String × Value) :=
  [("seq", .num ev.seq.toNat), ("id", .str ev.id), ("kind", .str ev.kind),
   ("from", .str ev.from), ("to", .str ev.to), ("amount", .num ev.amount.toNat),
   ("reason", .str ev.reason), ("session", .str ev.session), ("op_id", .str ev.opId),
   ("ts", .num ev.ts.toNat), ("prev_hash", .str ev.prevHash), ("hash", .str ev.hash)]

/-- The event with these fields. -/
def StarEvent.ofFields (fields : List (String × Value)) : Option StarEvent :=
  match fields.map Prod.snd with
  | [.num seq, .str id, .str kind, .str «from», .str «to», .num amount, .str reason,
     .str session, .str opId, .num ts, .str prevHash, .str hash] =>
      let ev : StarEvent :=
        ⟨.ofNat seq, id, kind, «from», «to», .ofNat amount, reason, session, opId, .ofNat ts,
          prevHash, hash⟩
      if ev.fields = fields then some ev else none
  | _ => none

theorem StarEvent.ofFields_fields (ev : StarEvent) : ofFields ev.fields = some ev := by
  simp only [ofFields, fields, List.map_cons, List.map_nil, UInt64.ofNat_toNat, if_true]

def StarEvent.print (ev : StarEvent) : String := String.ofList (printObject ev.fields)

def StarEvent.parse (line : String) : Option StarEvent :=
  (readObject line.toList).bind StarEvent.ofFields

theorem StarEvent.parse_print (ev : StarEvent) : parse ev.print = some ev := by
  rw [parse, StarEvent.print, String.toList_ofList, readObject_printObject, Option.bind_some,
    ofFields_fields]

/-- The writer's own form of an event. -/
def compactCodec : LineCodec where
  print := StarEvent.print
  parse := StarEvent.parse
  parse_print := StarEvent.parse_print
  braced ev := by
    obtain ⟨body, hbody⟩ := printObject_braced ev.fields
    refine ⟨String.ofList body, String.toList_inj.mp ?_⟩
    simp [StarEvent.print, hbody, openBrace, closeBrace]
  alone ev t ht := by
    obtain ⟨body, hbody⟩ := printObject_braced ev.fields
    have hchars : ev.print.toList = openBrace :: body ++ [closeBrace] := by
      rw [StarEvent.print, String.toList_ofList, hbody, List.cons_append]
    have hbefore : t.toList.dropWhile isWhite ≠ [] := by
      rw [Ne, List.dropWhile_eq_nil_iff, ← trim_eq_empty_iff]
      exact ht
    rw [StarEvent.parse, trim_append_of_text t (by decide) hchars ht, StarEvent.print,
      String.toList_ofList, readObject_behind (c := 's') hbefore (fun _ => rfl) rfl]
    rfl

end Ruletka.Ledger
