import CellShader.Files.Path
import CellShader.Files.Tree
import CellShader.Shader.Config

/-!
# The packaged templates

The templates that come with the program, and the tree of files with them in their place.
-/

namespace CellShader

namespace Packaged

/-- A text of lines, each with a line feed behind it. -/
def ofLines (ls : List String) : String := String.join (ls.map (· ++ "\n"))

/-- Draws a line of filled circles into the image of the cells. -/
def draw : String := ofLines [
  "struct PushConstants \x7b",
  "    draw_start: vec2<f32>,",
  "    draw_end: vec2<f32>,",
  "    draw_radius: f32,",
  "\x7d",
  "var<push_constant> pc: PushConstants;",
  "",
  "@group(0) @binding(0)",
  "var game_of_life_image: texture_storage_2d<rgba16float, read_write>;",
  "",
  "fn draw_circle(loc: vec2<i32>, radius: f32) \x7b",
  "    for (var i = 0; i < i32(radius); i += 1) \x7b",
  "        for (var j = 0; j < i32(radius); j += 1) \x7b",
  "            let offset = vec2<f32>(f32(i), f32(j)) - vec2<f32>(radius / 2.0);",
  "            if (length(offset) < radius / 2.0) \x7b",
  "                textureStore(game_of_life_image, loc + vec2<i32>(offset), vec4<f32>(1.0));",
  "            \x7d",
  "        \x7d",
  "    \x7d",
  "\x7d",
  "",
  "@compute @workgroup_size(32, 32, 1)",
  "fn main(@builtin(global_invocation_id) invocation_id: vec3<u32>) \x7b",
  "    let x = f32(invocation_id.x);",
  "    let y = f32(invocation_id.y);",
  "    if (x == 0.0 && y == 0.0) \x7b",
  "        let steps = max(1, i32(distance(pc.draw_start, pc.draw_end)));",
  "        for (var s = 0; s <= steps; s += 1) \x7b",
  "            let t = f32(s) / f32(steps);",
  "            let point = mix(pc.draw_start, pc.draw_end, vec2<f32>(t));",
  "            draw_circle(vec2<i32>(point), pc.draw_radius);",
  "        \x7d",
  "    \x7d",
  "\x7d"]

/-- Fills the cells at random and makes their next generation by the rule put in its place. -/
def gameOfLife : String := ofLines [
  "#import shared/bindings.wgsl",
  "#import shared/cells.wgsl",
  "",
  "@compute @workgroup_size(32, 32, 1)",
  "fn init(@builtin(global_invocation_id) invocation_id: vec3<u32>) \x7b",
  "    let location = vec2<i32>(i32(invocation_id.x), i32(invocation_id.y));",
  "",
  "    let random_number = randomFloat(invocation_id.y * 1024u + invocation_id.x);",
  "    let alive = random_number > 0.9;",
  "    let color = vec4<f32>(f32(alive));",
  "",
  "    textureStore(game_of_life_out, location, color);",
  "\x7d",
  "",
  "@compute @workgroup_size(32, 32, 1)",
  "fn update(@builtin(global_invocation_id) invocation_id: vec3<u32>) \x7b",
  "    let location = vec2<i32>(i32(invocation_id.x), i32(invocation_id.y));",
  "",
  "    let is_alive = is_cell_alive(location, 0, 0);",
  "    let num_neighbors = count_alive(location);",
  "",
  "    var result: u32 = 0u;",
  "",
  "    \x7bPLACEHOLDER\x7d",
  "",
  "    let color = vec4<f32>(f32(result));",
  "",
  "    storageBarrier();",
  "",
  "    textureStore(game_of_life_out, location, color);",
  "\x7d"]

/-- The images that hold the cells before and after a generation. -/
def bindings : String := ofLines [
  "@group(0) @binding(0)",
  "var game_of_life_in: texture_storage_2d<rgba16float, read_write>;",
  "@group(0) @binding(1)",
  "var game_of_life_out: texture_storage_2d<rgba16float, read_write>;"]

/-- Tells whether a cell is alive and counts the live neighbours of a cell. -/
def cells : String := ofLines [
  "#import shared/hash.wgsl",
  "",
  "fn is_cell_alive(location: vec2<i32>, offset_x: i32, offset_y: i32) -> bool \x7b",
  "    let size = vec2<i32>(textureDimensions(game_of_life_in));",
  "    let wrapped = (location + vec2<i32>(offset_x, offset_y) + size) % size;",
  "    let value: vec4<f32> = textureLoad(game_of_life_in, wrapped);",
  "    return value.x == 1.0;",
  "\x7d",
  "",
  "fn count_alive(location: vec2<i32>) -> u32 \x7b",
  "    return u32(is_cell_alive(location, -1, -1)) +",
  "           u32(is_cell_alive(location, -1,  0)) +",
  "           u32(is_cell_alive(location, -1,  1)) +",
  "           u32(is_cell_alive(location,  0, -1)) +",
  "           u32(is_cell_alive(location,  0,  1)) +",
  "           u32(is_cell_alive(location,  1, -1)) +",
  "           u32(is_cell_alive(location,  1,  0)) +",
  "           u32(is_cell_alive(location,  1,  1));",
  "\x7d"]

/-- Random numbers. -/
def hash : String := ofLines [
  "fn hash(value: u32) -> u32 \x7b",
  "    var state = value;",
  "    state = state ^ 2747636419u;",
  "    state = state * 2654435769u;",
  "    state = state ^ (state >> 16u);",
  "    state = state * 2654435769u;",
  "    state = state ^ (state >> 16u);",
  "    state = state * 2654435769u;",
  "    return state;",
  "\x7d",
  "",
  "fn randomFloat(value: u32) -> f32 \x7b",
  "    return f32(hash(value)) / 4294967295.0;",
  "\x7d"]

/-- The packaged templates with their paths below the packaged root. -/
def templates : List (Place × String) :=
  [(["draw.wgsl"], draw),
    (["game_of_life.wgsl"], gameOfLife),
    (["shared", "bindings.wgsl"], bindings),
    (["shared", "cells.wgsl"], cells),
    (["shared", "hash.wgsl"], hash)]

end Packaged

/-- The place of the packaged templates. -/
def packagedPlace : Place := (Path.pieces packagedRoot).filter (· ≠ "")

/-- The tree with the packaged templates in their place. -/
def FileTree.withPackaged (t : FileTree) : FileTree :=
  Packaged.templates.foldl
    (fun t x => t.insertDeep (packagedPlace ++ x.1) (.file (Text.encode x.2.toList))) t

end CellShader
