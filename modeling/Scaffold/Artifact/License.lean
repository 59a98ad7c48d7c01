import Scaffold.Blueprint
import Scaffold.Layout

/-!
The attribution and licence notice that opens both artifacts.
-/

namespace Scaffold.Blueprint

def license (blueprint : Blueprint) (fileName : String) : Layout :=
  .all [
    .line "//",
    .line ("//  " ++ fileName),
    .line ("//  " ++ blueprint.project),
    .line "//",
    .line ("//  Created by " ++ blueprint.author ++ " on " ++ blueprint.dateStamp ++ "."),
    .line ("//  Copyright (c) " ++ blueprint.copyright),
    .line "//  ",
    .line ("//  This file is part of " ++ blueprint.project ++ "."),
    .line "//",
    .line ("//  " ++ blueprint.project ++
      " is free software: you can redistribute it and/or modify"),
    .line "//  it under the terms of the GNU General Public License as published by",
    .line "//  the Free Software Foundation, either version 3 of the License, or",
    .line "//  (at your option) any later version.",
    .line "//  ",
    .line ("//  " ++ blueprint.project ++
      " is distributed in the hope that it will be useful,"),
    .line "//  but WITHOUT ANY WARRANTY; without even the implied warranty of",
    .line "//  MERCHANTABILITY or FITNESS FOR A PARTICULAR PURPOSE.  See the",
    .line "//  GNU General Public License for more details.",
    .line "//  ",
    .line "//  You should have received a copy of the GNU General Public License",
    .line ("//  along with " ++ blueprint.project ++
      ".  If not, see <http://www.gnu.org/licenses/>.")]

@[simp]
theorem levelAfter_license (blueprint : Blueprint) (fileName : String) (level : Nat) :
    (blueprint.license fileName).levelAfter level = level := rfl

theorem length_emissions_license (blueprint : Blueprint) (fileName : String) (level : Nat) :
    ((blueprint.license fileName).emissions level).length = 21 := rfl

end Scaffold.Blueprint
