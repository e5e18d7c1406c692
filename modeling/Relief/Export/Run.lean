import Relief.Export.Writer
import Relief.Project.Basic

set_option autoImplicit false

/-! # Export: a project into its two files -/

namespace Relief.Project

/-- Renders the rows of a project into a writer. -/
def renderInto {ε : Type} [ByteStream ε] (p : Project) (w : RowWriter ε) :
    Except RenderError (RowWriter ε) :=
  w.drawRows p.size p.heightExpr p.colorExpr

/-- Renders a project by scanlines straight into its two files. An invalid range is found before
    any file is touched. -/
def exportMaps (p : Project) (fs : Files) : Except Error Unit × Files :=
  match p.validate with
  | .error err => (.error err, fs)
  | .ok () =>
    match MapWriter.create fs p.size p.outputs.height p.outputs.color with
    | (.error err, fs) => (.error err, fs)
    | (.ok w, fs) =>
      match w.setRange p.range.min p.range.max with
      | .error err => (.error err, w.close fs)
      | .ok w =>
        match p.renderInto w with
        | .error err => (.error (.render err), w.close fs)
        | .ok w => w.finish fs

end Relief.Project
